/-
**Responses that are lost.**

The reader stores a response and signals the condition once.  When the slice of the thread that
waits has expired and the thread has not yet got the mutex back, nobody is there to be signalled;
the thread then looks at what its wait has returned and not at `s_pResponse`, and waits through the
next slice, or returns that the time is over.

* `QuectelCM.NotLost` — a call for which a response has been stored returns it, and no thread waits
  while one is there;
* `QuectelCM.Delivering` — the invariant: what has been stored is in `s_pResponse`;
* `QuectelCM.NotMissed` — a thread whose slice has expired finds nothing stored;
* `QuectelCM.notLost_iff` — **no response of a run is lost exactly when no slice of it expires just
  before the response**;
* `QuectelCM.not_notLost` — a response right behind the end of the last slice.
-/
import OpenwrtPackage.QuectelCM.Command

set_option relaxedAutoImplicit false
set_option autoImplicit false

namespace QuectelCM

/-! ### What should hold of a response -/

/-- The response that has been stored during this call is returned with 0. -/
def Returned.NotLost (c : Returned) : Prop :=
  ∀ r, c.stored = some r → c.ret = 0 ∧ (c.wanted = true → c.response = some r)

/-- No call that has returned has lost a response, and no call waits while its response is there. -/
def NotLost (s : Command) : Prop :=
  (∀ c ∈ s.returned, c.NotLost) ∧ ∀ p, s.caller = .waiting p → s.stored = none

/-- When the thread gets the mutex back after its slice has expired, nothing has been stored. -/
def NotMissed (s : Command) : CommandEvent → Prop
  | .resume => ∀ p, s.caller = .expired p → s.stored = none
  | _ => True

/-! ### The invariant -/

structure Delivering (s : Command) : Prop where
  notLost : NotLost s
  /-- during a call, what has been stored is in `s_pResponse`, and no request is pending -/
  kept : s.caller ≠ .idle → ∀ r, s.stored = some r → s.sResponse = some r ∧ s.sRequest = none

theorem delivering_start : Delivering .start :=
  ⟨⟨by simp [Command.start], by simp [Command.start]⟩, by simp [Command.start]⟩

/-- A call that returns keeps the invariant when it has lost nothing. -/
theorem delivering_finish {s : Command} {ret : ℤ} {wanted : Bool} {response : Option Received}
    (h : ∀ c ∈ s.returned, c.NotLost)
    (hlast : ∀ r, s.stored = some r → ret = 0 ∧ (wanted = true → response = some r)) :
    Delivering (s.finish ret wanted response) := by
  refine ⟨⟨fun c hc => ?_, by simp [Command.finish]⟩, by simp [Command.finish]⟩
  simp only [Command.finish, List.mem_append, List.mem_singleton] at hc
  rcases hc with hc | rfl
  · exact h c hc
  · exact hlast

theorem delivering_sendQMITimeout {s : Command} (h : Delivering s) (pRequest : List UInt8)
    (wanted : Bool) (msecs : UInt32) (sent : ℤ) :
    Delivering (sendQMITimeout s pRequest wanted msecs sent) := by
  unfold sendQMITimeout
  dsimp only
  split
  · exact ⟨⟨h.notLost.1, fun _ _ => rfl⟩, by simp⟩
  · exact delivering_finish h.notLost.1 (by simp)

/-- The reader signals a thread that waits. -/
theorem delivering_signal {s : Command} (hreturned : ∀ c ∈ s.returned, c.NotLost)
    (hkept : s.caller ≠ .idle → ∀ r, s.stored = some r → s.sResponse = some r ∧ s.sRequest = none) :
    Delivering s.signal := by
  refine ⟨⟨?_, fun p hp => absurd hp (signal_caller_ne_waiting s p)⟩, ?_⟩
  · simpa using hreturned
  · rw [signal_stored, signal_sResponse, signal_sRequest, ne_eq, signal_caller_idle]
    exact hkept

theorem delivering_recvQMI {s : Command} (h : Delivering s) (r : Received) (malloc : Bool) :
    Delivering (recvQMI s r malloc) := by
  unfold recvQMI
  split
  · split
    · exact delivering_signal h.notLost.1 fun _ r' hr' => ⟨hr', rfl⟩
    · exact h
  · exact h

theorem delivering_recvNull {s : Command} (h : Delivering s) : Delivering (recvNull s) := by
  unfold recvNull
  split
  · rename_i pRequest hpending
    -- a request is pending, so that nothing has been stored
    refine delivering_signal h.notLost.1 fun hcall r hr => ?_
    have hnone := (h.kept hcall r hr).2
    simp [hpending] at hnone
  · exact h

theorem delivering_resume {s t : Command} (h : Delivering s) (hmissed : NotMissed s .resume)
    (hs : s.step .resume = some t) : Delivering t := by
  obtain ⟨p, hcaller, rfl⟩ | ⟨p, hcaller, hwait⟩ := step_resume hs
  · refine delivering_finish h.notLost.1 fun r hr => ⟨rfl, fun hwanted => ?_⟩
    rw [if_pos hwanted]
    exact (h.kept (by simp [hcaller]) r hr).1
  · have hnone : s.stored = none := hmissed p hcaller
    obtain rfl | rfl := hwait
    · exact ⟨⟨h.notLost.1, fun _ _ => hnone⟩, fun _ r hr => by simp [hnone] at hr⟩
    · exact delivering_finish h.notLost.1 (by simp [hnone])

theorem delivering_step {s t : Command} {e : CommandEvent} (h : Delivering s)
    (hmissed : NotMissed s e) (hs : s.step e = some t) : Delivering t := by
  cases e with
  | call pRequest wanted msecs sent =>
      obtain ⟨-, rfl⟩ := step_call hs
      exact delivering_sendQMITimeout h pRequest wanted msecs sent
  | recv r malloc =>
      obtain rfl := Option.some.inj hs
      exact delivering_recvQMI h r malloc
  | recvNull =>
      obtain rfl := Option.some.inj hs
      exact delivering_recvNull h
  | expire =>
      obtain ⟨p, hcaller, rfl⟩ := step_expire hs
      exact ⟨⟨h.notLost.1, by simp⟩, fun _ => h.kept (by simp [hcaller])⟩
  | wake =>
      obtain ⟨p, hcaller, rfl⟩ := step_wake hs
      exact ⟨⟨h.notLost.1, by simp⟩, fun _ => h.kept (by simp [hcaller])⟩
  | resume => exact delivering_resume h hmissed hs

/-- A thread whose slice has expired before the response loses it at once. -/
theorem not_notLost_of_missed {s t : Command} {e : CommandEvent} (hmissed : ¬ NotMissed s e)
    (hs : s.step e = some t) : ¬ NotLost t := by
  cases e with
  | resume =>
      obtain ⟨p, hmissed⟩ := not_forall.1 hmissed
      obtain ⟨hcaller, hstored⟩ := Classical.not_imp.1 hmissed
      obtain ⟨r, hr⟩ := Option.ne_none_iff_exists'.1 hstored
      obtain ⟨q, hwoken, -⟩ | ⟨q, -, rfl | rfl⟩ := step_resume hs
      · simp [hcaller] at hwoken
      · exact fun hno => hstored (hno.2 _ rfl)
      · intro hno
        have hret : etimedout = 0 :=
          (hno.1 _ (List.mem_append_right _ (List.mem_singleton_self _)) r hr).1
        exact absurd hret (by decide)
  | call pRequest wanted msecs sent => exact absurd trivial hmissed
  | recv r malloc => exact absurd trivial hmissed
  | recvNull => exact absurd trivial hmissed
  | expire => exact absurd trivial hmissed
  | wake => exact absurd trivial hmissed

/-! ### Whole runs -/

/-- **Each call of a run returns the response that is stored for it, and does not wait on behind it,
exactly when no response is stored between the end of a slice and the thread's return from the
wait.** -/
theorem notLost_iff (evs : List CommandEvent) :
    (∀ s ∈ EventRun.states Command.step .start evs, NotLost s) ↔
      ∀ m ∈ EventRun.moves Command.step .start evs, NotMissed m.1 m.2 :=
  EventRun.holds_iff Delivering NotLost (fun _ _ => True) NotMissed (fun _ h => h.notLost)
    (fun _ _ _ h _ hmissed hs => delivering_step h hmissed hs)
    (fun _ _ _ _ _ hmissed hs => not_notLost_of_missed hmissed hs)
    delivering_start (fun _ _ => trivial)

/-- The time is one millisecond, and the response comes when it is over. -/
def missedRun : List CommandEvent :=
  [.call wdsRequest true 1 0, .expire, .recv ⟨wdsResponse, .response 0⟩ true, .resume]

theorem not_notLost : ¬ ∀ evs, ∀ s ∈ EventRun.states Command.step .start evs, NotLost s := by
  intro hall
  have hlast : ∃ s ∈ EventRun.states Command.step .start missedRun, ∃ c ∈ s.returned,
      c.stored = some ⟨wdsResponse, .response 0⟩ ∧ c.ret = etimedout := by
    decide +kernel
  obtain ⟨s, hs, c, hc, hstored, hret⟩ := hlast
  have hzero := ((hall missedRun s hs).1 c hc _ hstored).1
  exact absurd (hret.symm.trans hzero) (by decide)

end QuectelCM

/-
**How long a redial is put off.**

`SetupCallAllowTime` is the time before which `SIG_EVENT_START` does not dial.  It is a reading of
the monotonic clock in milliseconds, plus a minute at most, in an `unsigned long`, which starts over
after some weeks when it has 32 bits.  When it is larger than the clock, an alarm is set for the
difference.  The clock is read once for the comparison and once for the difference, and a time that
has long passed looks like one that is ahead once the clock has started over.

The true times are kept beside the variables: what the clock would show if it never started over,
and the time that `SetupCallAllowTime` stands for.

* `QuectelCM.UnsignedLong` — 32 or 64 bits;
* `QuectelCM.Clocked`, `QuectelCM.Clocked.step` — the loop and the true times;
* `QuectelCM.Bounded` — the alarm of the branch 'not yet allowed' is set for 1 to 60 seconds;
* `QuectelCM.Pending` — in that branch the allowed time has not passed at the second reading;
* `QuectelCM.InTime` — the allowed time is a minute ahead at most;
* `QuectelCM.bounded_of_pending` — **the alarms of a run are bounded while the allowed time has not
  passed each time that the loop waits for it**;
* `QuectelCM.not_bounded` — a clock of 32 bits that starts over.
-/
import Mathlib.Data.List.Chain
import OpenwrtPackage.Lib.EventRun
import OpenwrtPackage.QuectelCM.Main

set_option relaxedAutoImplicit false
set_option autoImplicit false

namespace QuectelCM

/-! ### Time -/

/-- The sizes of `unsigned long`. -/
inductive UnsignedLong where
  | bits32
  | bits64

def UnsignedLong.width : UnsignedLong → ℕ
  | .bits32 => 32
  | .bits64 => 64

/-- The loop with the true time, and the true time that `SetupCallAllowTime` stands for. -/
structure Clocked where
  cm : Cm
  now : ℕ
  deadline : ℕ

/-- The readings of the clock during an event. -/
def Event.readings : Event → List ℕ
  | .start i => [i.compared, i.subtracted, i.finished]
  | .voiceNetworkStateChanged _ now => [now]
  | .dataCallListChanged now => [now]
  | _ => []

/-- The state behind the requests of a start. -/
def dialled (s : Cm) (i : StartInput) : Cm := (startIpv6 (startIpv4 s i).1 i).1

/-- The time that `SetupCallAllowTime` stands for after an event. -/
def deadlineAfter (w : ℕ) (s : Cm) (deadline : ℕ) : Event → ℕ
  | .start i =>
      if s.detached ∨ NotYetAllowed w s i then deadline
      else if (dialled s i).anyEnabled qwdsPktDataDisconnected then
        i.finished + 1000 * allowTime (dialled s i).setupCallFail
      else if IsConnected (dialled s i) then i.finished
      else deadline
  | .voiceNetworkStateChanged psAttachedState now => if psAttachedState = 1 then deadline else now
  | .dataCallListChanged now => if IsConnected s then now + 1000 else deadline
  | _ => deadline

/-- An event; the clock does not go back. -/
def Clocked.step (u : UnsignedLong) (c : Clocked) (e : Event) : Option Clocked :=
  if List.IsChain (· ≤ ·) (c.now :: e.readings) then
    (QuectelCM.step u.width c.cm e).map fun cm =>
      ⟨cm, e.readings.getLastD c.now, deadlineAfter u.width c.cm c.deadline e⟩
  else none

/-- The loop is entered at the time `now`. -/
def Clocked.start (u : UnsignedLong) (profile : Profile) (psAttachedState : UInt8)
    (sLink : Option Link) (wdsConnectionHandle : IpFamily → UInt32) (now : ℕ) : Clocked :=
  ⟨QuectelCM.start u.width profile psAttachedState sLink wdsConnectionHandle now, now, now⟩

/-! ### What should hold of the alarm -/

/-- In the branch 'not yet allowed' the alarm is set, for 1 to 60 seconds. -/
def Bounded (u : UnsignedLong) (c : Clocked) : Event → Prop
  | .start i =>
      NotYetAllowed u.width c.cm i →
        ∃ seconds, (sigEventStart u.width c.cm i).2 = [.alarm seconds] ∧
          1 ≤ seconds ∧ seconds ≤ 60
  | _ => True

/-- In that branch the allowed time has not passed at the second reading. -/
def Pending (u : UnsignedLong) (c : Clocked) : Event → Prop
  | .start i => NotYetAllowed u.width c.cm i → i.subtracted < c.deadline
  | _ => True

instance (u : UnsignedLong) (c : Clocked) (e : Event) : Decidable (Pending u c e) :=
  match e with
  | .start _ => inferInstanceAs (Decidable (_ → _))
  | .check _ | .stop _ | .deviceDisconnected | .voiceNetworkStateChanged .. |
    .dataCallListChanged _ | .modemReportReset | .loopbackConfigInd _ | .hangup =>
      inferInstanceAs (Decidable True)

/-! ### The allowed time -/

/-- `SetupCallAllowTime` shows the allowed time, which is at most a minute ahead. -/
structure InTime (u : UnsignedLong) (c : Clocked) : Prop where
  shown : c.cm.setupCallAllowTime = c.deadline % 2 ^ u.width
  soon : c.deadline ≤ c.now + 60000

theorem allowTime_le (setupCallFail : UInt32) : allowTime setupCallFail ≤ 60 := by
  unfold allowTime
  rcases setupCallFail.toNat with _ | _ | _ | _ | _ | n <;> simp

/-- The end of a start sets the allowed time. -/
theorem backOff_allowTime (u : UnsignedLong) (s : Cm) (now : ℕ) :
    (backOff u.width s now).1.setupCallAllowTime =
      if s.anyEnabled qwdsPktDataDisconnected then
        (now + 1000 * allowTime s.setupCallFail) % 2 ^ u.width
      else if IsConnected s then now % 2 ^ u.width
      else s.setupCallAllowTime := by
  unfold backOff
  split
  · dsimp only
    rw [clockMsec, Nat.add_mod_mod, Nat.add_comm, Nat.mul_comm]
  · split
    · rw [clockMsec]
    · rfl

/-- The alarm is set for the time that is left, rounded up to seconds. -/
theorem allowSeconds_of_pending (u : UnsignedLong) {s : Cm} {deadline now : ℕ}
    (hshown : s.setupCallAllowTime = deadline % 2 ^ u.width) (hsoon : deadline ≤ now + 60000)
    (hpending : now < deadline) :
    1 ≤ allowSeconds u.width s now ∧ allowSeconds u.width s now ≤ 60 := by
  obtain ⟨left, rfl⟩ : ∃ left, deadline = now + left := ⟨deadline - now, by omega⟩
  rw [allowSeconds, clockMsec, hshown]
  cases u with
  | bits32 =>
      have hleft : ((now + left) % 2 ^ 32 + 2 ^ 32 - now % 2 ^ 32 + 999) % 2 ^ 32 = left + 999 := by
        omega
      simp only [UnsignedLong.width, hleft]
      omega
  | bits64 =>
      have hleft : ((now + left) % 2 ^ 64 + 2 ^ 64 - now % 2 ^ 64 + 999) % 2 ^ 64 = left + 999 := by
        omega
      simp only [UnsignedLong.width, hleft]
      omega

/-! ### Steps -/

theorem usbnetLinkChange_allowTime (s : Cm) (link : Link) :
    (usbnetLinkChange s link).1.setupCallAllowTime = s.setupCallAllowTime :=
  (usbnetLinkChange_touches s link .v4).allowTime

theorem mainQuit_allowTime (s : Cm) : (mainQuit s).1.setupCallAllowTime = s.setupCallAllowTime :=
  usbnetLinkChange_allowTime s .down

theorem sigEventCheck_allowTime (s : Cm) (i : CheckInput) :
    (sigEventCheck s i).1.setupCallAllowTime = s.setupCallAllowTime := by
  have hlink : ∀ t : Cm, (linkAfterCheck t).1.setupCallAllowTime = t.setupCallAllowTime := by
    intro t
    unfold linkAfterCheck
    split
    · exact usbnetLinkChange_allowTime ..
    · split
      · exact usbnetLinkChange_allowTime ..
      · rfl
  refine (hlink _).trans ?_
  rw [(checkIpv6_touches _ i).allowTime, (checkIpv4_touches _ i).allowTime,
    (checkRegistration_touches s i .v4).allowTime]

theorem sigEventStop_allowTime (s : Cm) (i : StopInput) :
    (sigEventStop s i).1.setupCallAllowTime = s.setupCallAllowTime := by
  unfold sigEventStop
  dsimp only
  rw [mainQuit_allowTime, usbnetLinkChange_allowTime, (stopFamily_touches _ .v6 _).allowTime,
    (stopFamily_touches _ .v4 _).allowTime]

theorem dialled_allowTime (s : Cm) (i : StartInput) :
    (dialled s i).setupCallAllowTime = s.setupCallAllowTime :=
  (startIpv6_touches _ i).allowTime.trans (startIpv4_touches s i).allowTime

/-- An event keeps `SetupCallAllowTime` at the time that it stands for. -/
theorem handle_allowTime (u : UnsignedLong) {s : Cm} {deadline : ℕ}
    (h : s.setupCallAllowTime = deadline % 2 ^ u.width) (e : Event) :
    (handle u.width s e).1.setupCallAllowTime =
      deadlineAfter u.width s deadline e % 2 ^ u.width := by
  cases e with
  | start i =>
      simp only [handle, deadlineAfter, sigEventStart]
      by_cases hdetached : s.detached
      · rw [if_pos hdetached, if_pos (.inl hdetached)]
        exact h
      · rw [if_neg hdetached]
        by_cases hallowed : NotYetAllowed u.width s i
        · rw [if_pos hallowed, if_pos (.inr hallowed)]
          exact h
        · rw [if_neg hallowed, if_neg fun hc => hc.elim hdetached hallowed]
          refine (backOff_allowTime u (dialled s i) i.finished).trans ?_
          split
          · rfl
          · split
            · rfl
            · exact (dialled_allowTime s i).trans h
  | check i => exact (sigEventCheck_allowTime s i).trans h
  | stop i => exact (sigEventStop_allowTime s i).trans h
  | deviceDisconnected =>
      refine Eq.trans ?_ h
      exact (mainQuit_allowTime _).trans (usbnetLinkChange_allowTime s .down)
  | voiceNetworkStateChanged psAttachedState now =>
      simp only [handle, voiceNetworkStateChanged, deadlineAfter]
      split
      · exact h
      · rfl
  | dataCallListChanged now =>
      simp only [handle, dataCallListChanged, deadlineAfter]
      by_cases hconn : IsConnected s
      · rw [if_pos hconn, if_pos hconn]
        exact Nat.mod_add_mod ..
      · rw [if_neg hconn, if_neg hconn]
        exact h
  | modemReportReset => exact (mainQuit_allowTime s).trans h
  | loopbackConfigInd loopbackState => exact h
  | hangup => exact (mainQuit_allowTime s).trans h

/-- An event puts the allowed time off by a minute at most. -/
theorem deadlineAfter_le (w : ℕ) (s : Cm) {deadline now : ℕ} {e : Event}
    (hchain : List.IsChain (· ≤ ·) (now :: e.readings)) (h : deadline ≤ now + 60000) :
    deadlineAfter w s deadline e ≤ e.readings.getLastD now + 60000 := by
  cases e with
  | start i =>
      have hallow := allowTime_le (dialled s i).setupCallFail
      simp only [Event.readings, List.isChain_cons_cons] at hchain
      simp only [deadlineAfter, Event.readings, List.getLastD_cons, List.getLastD_nil]
      split
      · omega
      · split
        · omega
        · split <;> omega
  | voiceNetworkStateChanged psAttachedState t =>
      simp only [Event.readings, List.isChain_cons_cons] at hchain
      simp only [deadlineAfter, Event.readings, List.getLastD_cons, List.getLastD_nil]
      split <;> omega
  | dataCallListChanged t =>
      simp only [Event.readings, List.isChain_cons_cons] at hchain
      simp only [deadlineAfter, Event.readings, List.getLastD_cons, List.getLastD_nil]
      split <;> omega
  | check i => exact h
  | stop i => exact h
  | deviceDisconnected => exact h
  | modemReportReset => exact h
  | loopbackConfigInd loopbackState => exact h
  | hangup => exact h

/-- An event with readings of the clock that do not go back. -/
theorem Clocked.step_eq {u : UnsignedLong} {c c' : Clocked} {e : Event}
    (h : c.step u e = some c') : List.IsChain (· ≤ ·) (c.now :: e.readings) ∧
      c' = ⟨(handle u.width c.cm e).1, e.readings.getLastD c.now,
        deadlineAfter u.width c.cm c.deadline e⟩ := by
  obtain ⟨hchain, h⟩ := Option.ite_none_right_eq_some.1 h
  obtain ⟨cm, hcm, rfl⟩ := Option.map_eq_some_iff.1 h
  rw [(QuectelCM.step_eq hcm).2]
  exact ⟨hchain, rfl⟩

theorem inTime_step (u : UnsignedLong) {c c' : Clocked} {e : Event} (h : InTime u c)
    (hs : c.step u e = some c') : InTime u c' := by
  obtain ⟨hchain, rfl⟩ := Clocked.step_eq hs
  exact ⟨handle_allowTime u h.shown e, deadlineAfter_le u.width c.cm hchain h.soon⟩

/-- While the allowed time has not passed, the alarm is bounded. -/
theorem bounded_of_inTime (u : UnsignedLong) {c c' : Clocked} {e : Event} (h : InTime u c)
    (hpending : Pending u c e) (hs : c.step u e = some c') : Bounded u c e := by
  cases e with
  | start i =>
      intro hallowed
      have hchain : List.IsChain (· ≤ ·) [c.now, i.compared, i.subtracted, i.finished] :=
        (Clocked.step_eq hs).1
      simp only [List.isChain_cons_cons] at hchain
      have hsoon : c.deadline ≤ i.subtracted + 60000 := by
        have := h.soon
        omega
      refine ⟨_, ?_, allowSeconds_of_pending u h.shown hsoon (hpending hallowed)⟩
      rw [sigEventStart, if_neg hallowed.1, if_pos hallowed]
  | _ => trivial

/-! ### Whole runs -/

theorem inTime_start (u : UnsignedLong) (profile : Profile) (psAttachedState : UInt8)
    (sLink : Option Link) (wdsConnectionHandle : IpFamily → UInt32) (now : ℕ) :
    InTime u (.start u profile psAttachedState sLink wdsConnectionHandle now) :=
  ⟨rfl, Nat.le_add_right ..⟩

/-- **Each alarm of a run is set for 1 to 60 seconds when the allowed time has not passed each time
that the loop waits for it.** -/
theorem bounded_of_pending (u : UnsignedLong) (profile : Profile) (psAttachedState : UInt8)
    (sLink : Option Link) (wdsConnectionHandle : IpFamily → UInt32) (now : ℕ) (evs : List Event)
    (hpending : ∀ m ∈ EventRun.moves (Clocked.step u)
      (.start u profile psAttachedState sLink wdsConnectionHandle now) evs, Pending u m.1 m.2) :
    ∀ m ∈ EventRun.moves (Clocked.step u)
      (.start u profile psAttachedState sLink wdsConnectionHandle now) evs, Bounded u m.1 m.2 := by
  intro m hm
  obtain ⟨hstate, c', hs⟩ := EventRun.step_of_mem_moves hm
  have hin : InTime u m.1 :=
    EventRun.invariant (InTime u) (fun _ _ _ hi hstep => inTime_step u hi hstep)
      (inTime_start u profile psAttachedState sLink wdsConnectionHandle now) evs m.1 hstate
  exact bounded_of_inTime u hin (hpending m hm) hs

/-- A start at the time `now`, and nobody answers. -/
def silentStart (now : ℕ) : StartInput :=
  ⟨.failed 110, .failed 110, .failed 110, .failed 110, .failed 110, now, now, now⟩

/-- The loop is entered at the time `now`; a check and a start fail, and a second later the loop is
told to start again. -/
def redialRun : List Event :=
  [.check silentCheck, .start (silentStart 2000), .start (silentStart 3000)]

theorem bounded_redialRun :
    (∃ m ∈ EventRun.moves (Clocked.step .bits32)
      (.start .bits32 (.default true false) 1 none (fun _ => 0) 1000) redialRun,
      m.1.cm.setupCallAllowTime = 7000) ∧
    ∀ m ∈ EventRun.moves (Clocked.step .bits32)
      (.start .bits32 (.default true false) 1 none (fun _ => 0) 1000) redialRun,
      Bounded .bits32 m.1 m.2 :=
  ⟨by decide +kernel, bounded_of_pending .bits32 _ 1 none _ 1000 redialRun (by decide +kernel)⟩

/-- The loop is entered just before a clock of 32 bits starts over, and the start is ten seconds
later: the alarm is set for 49 days. -/
theorem not_bounded : ¬ ∀ (now : ℕ) (evs : List Event),
    ∀ m ∈ EventRun.moves (Clocked.step .bits32)
      (.start .bits32 (.default true false) 1 none (fun _ => 0) now) evs,
      Bounded .bits32 m.1 m.2 := by
  intro hall
  have hmove := hall (2 ^ 32 - 1) [.check silentCheck, .start (silentStart (2 ^ 32 + 9999))]
    (_, _) (List.mem_cons_of_mem _ (List.mem_cons_self ..))
  obtain ⟨seconds, halarm, -, hle⟩ := hmove (by decide +kernel)
  have hlong : ∃ seconds, 60 < seconds ∧
      (sigEventStart 32 (sigEventCheck
        (start 32 (.default true false) 1 none (fun _ => 0) (2 ^ 32 - 1)) silentCheck).1
        (silentStart (2 ^ 32 + 9999))).2 = [.alarm seconds] :=
    ⟨4294958, by decide +kernel⟩
  obtain ⟨long, hlt, heq⟩ := hlong
  have hsame := halarm.symm.trans heq
  simp only [List.cons.injEq, Action.alarm.injEq, and_true] at hsame
  omega

end QuectelCM

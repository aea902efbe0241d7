/-
**One request at a time.**

`QmiThreadSendQMITimeout` sends a request and waits on a condition variable until the thread that
reads from the modem has stored a response in `s_pResponse`; `QmiThreadRecvQMI` is what that thread
does with a message.  Both hold `cm_command_mutex`, which only the wait gives up, so the two threads
take turns in the steps of this module.

A timed wait can expire at any moment.  From then on the thread does not wait for the condition any
more, but it goes on only when it has the mutex again, and a signal in between is lost.
`pthread_cond_timeout_np` cuts the time into four slices and waits once for each.

* `QuectelCM.isResponse` — `is_response`;
* `QuectelCM.Caller` — where the thread is that sends;
* `QuectelCM.Command` — `s_pRequest`, `s_pResponse` and the history of the calls;
* `QuectelCM.sendQMITimeout`, `QuectelCM.recvQMI`, `QuectelCM.resume` — the steps;
* `QuectelCM.Command.step` — the two threads together;
* `QuectelCM.step_call`, `QuectelCM.step_expire`, `QuectelCM.step_wake`, `QuectelCM.step_resume` —
  what a step does.

A message comes with its origin, which the code does not see.  Messages that nobody waits for are
left out here; what they tell the main loop are events of that loop.
-/
import Mathlib.Data.Int.Notation
import OpenwrtPackage.Lib.EventRun
import OpenwrtPackage.Qmi.Qmux

set_option relaxedAutoImplicit false
set_option autoImplicit false

namespace QuectelCM

open Qmi

/-! ### Messages -/

/-- `is_response` -/
def isResponse (pRequest pResponse : List UInt8) : Bool :=
  qmiHdrQmiType pRequest = qmiHdrQmiType pResponse ∧
    qmiHdrClientId pRequest = qmiHdrClientId pResponse ∧
      if qmiHdrQmiType pRequest = qmuxTypeCtl then
        ctlTransactionId pRequest = ctlTransactionId pResponse
      else qmuxTransactionId pRequest = qmuxTransactionId pResponse

/-- Why the modem has sent a message. -/
inductive Origin where
  /-- it answers the request of the call with this number; the first call has the number 0 -/
  | response (call : ℕ)
  | indication
  deriving DecidableEq

structure Received where
  msg : List UInt8
  origin : Origin
  deriving DecidableEq

/-! ### The state -/

/-- The variables of a call that waits. -/
structure Wait where
  msecs : UInt32
  /-- the loop variable of `pthread_cond_timeout_np` -/
  i : UInt32
  /-- `ppResponse` is not `NULL` -/
  wanted : Bool
  deriving DecidableEq

/-- Where the thread is that sends. -/
inductive Caller where
  /-- not in a call -/
  | idle
  /-- it waits for the condition -/
  | waiting (p : Wait)
  /-- the condition has been signalled, and it waits for the mutex -/
  | woken (p : Wait)
  /-- its time is over, and it waits for the mutex -/
  | expired (p : Wait)
  deriving DecidableEq

/-- A call that has returned. -/
structure Returned where
  call : ℕ
  ret : ℤ
  wanted : Bool
  /-- `*ppResponse` -/
  response : Option Received
  /-- what the reader has stored during the call -/
  stored : Option Received
  deriving DecidableEq

structure Command where
  /-- `s_pRequest` -/
  sRequest : Option (List UInt8)
  /-- `s_pResponse` -/
  sResponse : Option Received
  caller : Caller
  /-- the requests of all calls -/
  issued : List (List UInt8)
  /-- what the reader has stored since the last call began -/
  stored : Option Received
  returned : List Returned

/-- `ETIMEDOUT` -/
def etimedout : ℤ := 110

/-! ### The steps -/

/-- The call that is going on returns. -/
def Command.finish (s : Command) (ret : ℤ) (wanted : Bool) (response : Option Received) : Command :=
  { s with
    caller := .idle
    returned := s.returned ++ [⟨s.issued.length - 1, ret, wanted, response, s.stored⟩] }

/-- `QmiThreadSendQMITimeout` up to the wait.  `sent` is what `qmidev_send` returns, and `pRequest`
is the request as `qmidev_send` leaves it. -/
def sendQMITimeout (s : Command) (pRequest : List UInt8) (wanted : Bool) (msecs : UInt32)
    (sent : ℤ) : Command :=
  let s' : Command :=
    { s with
      sRequest := some pRequest
      sResponse := none
      issued := s.issued ++ [pRequest]
      stored := none }
  if sent = 0 then { s' with caller := .waiting ⟨msecs, 0, wanted⟩ } else s'.finish sent wanted none

/-- `pthread_cond_signal` -/
def Command.signal (s : Command) : Command :=
  match s.caller with
  | .waiting p => { s with caller := .woken p }
  | _ => s

/-- `QmiThreadRecvQMI` with a message, which is copied when `malloc` has memory for it. -/
def recvQMI (s : Command) (r : Received) (malloc : Bool) : Command :=
  match s.sRequest with
  | some pRequest =>
      if isResponse pRequest r.msg then
        let copy := if malloc then some r else none
        { s with sRequest := none, sResponse := copy, stored := copy }.signal
      else s
  | none => s

/-- `QmiThreadRecvQMI` with `NULL`, when the reader comes to its end. -/
def recvNull (s : Command) : Command :=
  match s.sRequest with
  | some _ => { s with sRequest := none, sResponse := none }.signal
  | none => s

/-- A slice of the time, `t` in `pthread_cond_timeout_np`. -/
def slice (msecs : UInt32) : UInt32 := if msecs / 4 = 0 then 1 else msecs / 4

/-- `QmiThreadSendQMITimeout` from the wait on. -/
def resume (s : Command) : Option Command :=
  match s.caller with
  | .woken p =>
      some ({ s with sResponse := if p.wanted then s.sResponse else none }.finish 0 p.wanted
        (if p.wanted then s.sResponse else none))
  | .expired p =>
      let i := p.i + slice p.msecs
      some (if i < p.msecs then { s with caller := .waiting { p with i := i } }
        else s.finish etimedout p.wanted none)
  | _ => none

/-- A step of one of the threads, or of the condition variable. -/
inductive CommandEvent where
  /-- a call begins -/
  | call (pRequest : List UInt8) (wanted : Bool) (msecs : UInt32) (sent : ℤ)
  /-- the reader has a message -/
  | recv (r : Received) (malloc : Bool)
  /-- the reader comes to its end -/
  | recvNull
  /-- the slice is over; without a time there is no end -/
  | expire
  /-- the wait ends for no reason, as it may -/
  | wake
  /-- the thread that sends gets the mutex back -/
  | resume
  deriving DecidableEq

def Command.step (s : Command) : CommandEvent → Option Command
  | .call pRequest wanted msecs sent =>
      if s.caller = .idle then some (sendQMITimeout s pRequest wanted msecs sent) else none
  | .recv r malloc => some (recvQMI s r malloc)
  | .recvNull => some (QuectelCM.recvNull s)
  | .expire =>
      match s.caller with
      | .waiting p => if p.msecs = 0 then none else some { s with caller := .expired p }
      | _ => none
  | .wake =>
      match s.caller with
      | .waiting p => some { s with caller := .woken p }
      | _ => none
  | .resume => QuectelCM.resume s

/-- Nothing has been sent. -/
def Command.start : Command := ⟨none, none, .idle, [], none, []⟩

/-! ### What a step does -/

section

variable {s t : Command}

theorem step_call {pRequest : List UInt8} {wanted : Bool} {msecs : UInt32} {sent : ℤ}
    (h : s.step (.call pRequest wanted msecs sent) = some t) :
    s.caller = .idle ∧ t = sendQMITimeout s pRequest wanted msecs sent := by
  obtain ⟨hidle, ht⟩ := Option.ite_none_right_eq_some.1 h
  exact ⟨hidle, (Option.some.inj ht).symm⟩

theorem step_expire (h : s.step .expire = some t) :
    ∃ p, s.caller = .waiting p ∧ t = { s with caller := .expired p } := by
  simp only [Command.step] at h
  split at h
  · rename_i p hcaller
    obtain ⟨-, ht⟩ := Option.ite_none_left_eq_some.1 h
    exact ⟨p, hcaller, (Option.some.inj ht).symm⟩
  · simp at h

theorem step_wake (h : s.step .wake = some t) :
    ∃ p, s.caller = .waiting p ∧ t = { s with caller := .woken p } := by
  simp only [Command.step] at h
  split at h
  · rename_i p hcaller
    exact ⟨p, hcaller, (Option.some.inj h).symm⟩
  · simp at h

/-- A thread that has been woken returns; one whose slice has expired waits for the next slice or
returns. -/
theorem step_resume (h : s.step .resume = some t) :
    (∃ p, s.caller = .woken p ∧
      t = { s with sResponse := if p.wanted then s.sResponse else none }.finish 0 p.wanted
        (if p.wanted then s.sResponse else none)) ∨
    ∃ p, s.caller = .expired p ∧
      (t = { s with caller := .waiting { p with i := p.i + slice p.msecs } } ∨
        t = s.finish etimedout p.wanted none) := by
  simp only [Command.step, resume] at h
  split at h
  · rename_i p hcaller
    exact .inl ⟨p, hcaller, (Option.some.inj h).symm⟩
  · rename_i p hcaller
    obtain rfl := Option.some.inj h
    refine .inr ⟨p, hcaller, ?_⟩
    split
    · exact .inl rfl
    · exact .inr rfl
  · simp at h

end

/-! ### What a signal leaves alone -/

section

variable (s : Command)

@[simp] theorem signal_sRequest : s.signal.sRequest = s.sRequest := by
  unfold Command.signal
  split <;> rfl

@[simp] theorem signal_sResponse : s.signal.sResponse = s.sResponse := by
  unfold Command.signal
  split <;> rfl

@[simp] theorem signal_issued : s.signal.issued = s.issued := by
  unfold Command.signal
  split <;> rfl

@[simp] theorem signal_stored : s.signal.stored = s.stored := by
  unfold Command.signal
  split <;> rfl

@[simp] theorem signal_returned : s.signal.returned = s.returned := by
  unfold Command.signal
  split <;> rfl

/-- After a signal nobody waits. -/
theorem signal_caller_ne_waiting (p : Wait) : s.signal.caller ≠ .waiting p := by
  unfold Command.signal
  split
  · simp
  · rename_i hcaller
    exact hcaller p

/-- A signal does not end a call. -/
theorem signal_caller_idle : s.signal.caller = .idle ↔ s.caller = .idle := by
  unfold Command.signal
  split
  · rename_i p hcaller
    simp [hcaller]
  · rfl

end

/-! ### A request and its response -/

/-- A request of the service WDS with the first transaction id, from the client 1. -/
def wdsRequest : List UInt8 := [0x01, 12, 0, 0x00, 0x01, 1, 0x00, 1, 0, 0x22, 0, 0, 0]

/-- Its response. -/
def wdsResponse : List UInt8 :=
  [0x01, 19, 0, 0x80, 0x01, 1, 0x02, 1, 0, 0x22, 0, 7, 0, 0x02, 4, 0, 0, 0, 0, 0]

end QuectelCM

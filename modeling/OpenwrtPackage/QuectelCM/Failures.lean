/-
**Requests that fail.**

A request function takes a return value of 0 and a response that is not `NULL` together for success,
but the two do not go together: a thread that is woken without a response has the return value 0,
and its functions return that.  The modem, too, can give a result without an error.  When the
addresses are asked for, the old ones have been cleared before.

Main definitions:

* `QuectelCM.Transport` — how a request can fare, and the answer that the function sees;
* `QuectelCM.Succeeded` — the modem has answered with result and error 0;
* `QuectelCM.Transport.Answers` — there is a response, or the return value says why not.

Main results:

* `QuectelCM.returned_transport` — every call that returns is one of these cases;
* `QuectelCM.success_iff` — **when 0 means that the modem has said so**;
* `QuectelCM.failedQuery_iff` — **when a failed query leaves the profile and the call alone**.
-/
import OpenwrtPackage.QuectelCM.Command
import OpenwrtPackage.QuectelCM.Main

set_option relaxedAutoImplicit false
set_option autoImplicit false

namespace QuectelCM

open Qmi Bytes

/-! ### The transport -/

/-- How a request fares. -/
inductive Transport where
  /-- there is no memory for the request -/
  | notComposed
  /-- `qmidev_send` fails -/
  | sendFailed (err : ℤ) (h : err ≠ 0)
  | timeout
  /-- the reader comes to its end and wakes the thread -/
  | quit
  /-- there is no memory for a copy of the response -/
  | copyFailed
  /-- the wait ends for no reason -/
  | woken
  | response (m : List UInt8)

/-- `-EINVAL` -/
def einval : ℤ := -22

/-- What the request function sees. -/
def Transport.answer : Transport → Answer
  | .notComposed => .failed einval
  | .sendFailed err _ => .failed err
  | .timeout => .failed etimedout
  | .quit | .copyFailed | .woken => .failed 0
  | .response m => .response m

/-- There is a response, or the return value says that there is none. -/
def Transport.Answers : Transport → Prop
  | .quit | .copyFailed | .woken => False
  | _ => True

instance (t : Transport) : Decidable t.Answers := by
  cases t <;> simp only [Transport.Answers] <;> infer_instance

/-- What the caller of `QmiThreadSendQMITimeout` sees of a call that has returned. -/
def Returned.answer (c : Returned) : Answer :=
  match c.response with
  | some r => .response r.msg
  | none => .failed c.ret

/-- A call that has returned: with an error and without a response, or with what has been stored. -/
def Returned.Plain (c : Returned) : Prop :=
  (c.ret ≠ 0 ∧ c.response = none) ∨
    (c.ret = 0 ∧ ∀ r, c.response = some r → c.wanted = true ∧ c.stored = some r)

/-- Every call that has returned is plain, and `s_pResponse` is what has been stored. -/
structure Plainly (s : Command) : Prop where
  returned : ∀ c ∈ s.returned, c.Plain
  stored : ∀ r, s.sResponse = some r → s.stored = some r

theorem etimedout_ne_zero : etimedout ≠ 0 := by decide

theorem plainly_finish {s : Command} {ret : ℤ} {wanted : Bool} {response : Option Received}
    (h : Plainly s) (hlast : (⟨s.issued.length - 1, ret, wanted, response, s.stored⟩ :
      Returned).Plain) : Plainly (s.finish ret wanted response) := by
  refine ⟨fun c hc => ?_, h.stored⟩
  simp only [Command.finish, List.mem_append, List.mem_singleton] at hc
  rcases hc with hc | rfl
  · exact h.returned c hc
  · exact hlast

theorem plainly_signal {s : Command} (h : Plainly s) : Plainly s.signal := by
  refine ⟨?_, ?_⟩
  · rw [signal_returned]
    exact h.returned
  · rw [signal_sResponse, signal_stored]
    exact h.stored

/-- One step keeps it. -/
theorem plainly_step {s t : Command} {e : CommandEvent} (h : Plainly s) (hs : s.step e = some t) :
    Plainly t := by
  cases e with
  | call pRequest wanted msecs sent =>
      obtain ⟨-, rfl⟩ := step_call hs
      unfold sendQMITimeout
      dsimp only
      split
      · exact ⟨h.returned, fun r hr => nomatch hr⟩
      · rename_i hsent
        exact plainly_finish ⟨h.returned, fun r hr => nomatch hr⟩ (.inl ⟨hsent, rfl⟩)
  | recv r malloc =>
      obtain rfl := Option.some.inj hs
      unfold recvQMI
      split
      · split
        · exact plainly_signal ⟨h.returned, fun r hr => hr⟩
        · exact h
      · exact h
  | recvNull =>
      obtain rfl := Option.some.inj hs
      unfold recvNull
      split
      · exact plainly_signal ⟨h.returned, fun r hr => nomatch hr⟩
      · exact h
  | expire =>
      obtain ⟨p, -, rfl⟩ := step_expire hs
      exact ⟨h.returned, h.stored⟩
  | wake =>
      obtain ⟨p, -, rfl⟩ := step_wake hs
      exact ⟨h.returned, h.stored⟩
  | resume =>
      obtain ⟨p, -, rfl⟩ | ⟨p, -, rfl | rfl⟩ := step_resume hs
      · have hkept : ∀ r, (if p.wanted then s.sResponse else none) = some r →
            p.wanted = true ∧ s.stored = some r := by
          intro r hr
          obtain ⟨hwanted, hr⟩ := Option.ite_none_right_eq_some.1 hr
          exact ⟨hwanted, h.stored r hr⟩
        exact plainly_finish ⟨h.returned, fun r hr => (hkept r hr).2⟩ (.inr ⟨rfl, hkept⟩)
      · exact ⟨h.returned, h.stored⟩
      · exact plainly_finish h (.inl ⟨etimedout_ne_zero, rfl⟩)

/-- **Every call that returns is one of the cases**, and a response is the one that the reader has
stored for it. -/
theorem returned_transport (evs : List CommandEvent) :
    ∀ s ∈ EventRun.states Command.step .start evs, ∀ c ∈ s.returned,
      ∃ t : Transport, t.answer = c.answer ∧
        ∀ m, t = .response m → ∃ r, c.stored = some r ∧ r.msg = m := by
  have hstart : Plainly .start := ⟨fun c hc => (nomatch hc), fun r hr => (nomatch hr)⟩
  intro s hs c hc
  have hplain := (EventRun.invariant Plainly (fun _ _ _ h hstep => plainly_step h hstep) hstart evs
    s hs).returned c hc
  rw [Returned.answer]
  rcases hplain with ⟨hret, hnone⟩ | ⟨hret, hsome⟩
  · exact ⟨.sendFailed c.ret hret, by rw [hnone]; rfl, fun m hm => nomatch hm⟩
  · cases hresponse : c.response with
    | none => exact ⟨.woken, by rw [hret]; rfl, fun m hm => nomatch hm⟩
    | some r =>
        refine ⟨.response r.msg, rfl, fun m hm => ?_⟩
        cases hm
        exact ⟨r, (hsome r hresponse).2, rfl⟩

/-! ### Success -/

/-- The modem has answered with result and error 0. -/
def Succeeded (a : Answer) : Prop := ∃ m, a = .response m ∧ qmuxResult m = 0 ∧ qmuxError m = 0

/-- An error response says which error. -/
def NamesError (m : List UInt8) : Prop := qmuxResult m ≠ 0 → qmuxError m ≠ 0

/-- `requestSetupDataCall`, which frees an error response before it reads the error that it returns;
`freed` is what stands there then. -/
def requestSetupDataCallFreed (a : Answer) (freed : ℕ) : ℤ × Option UInt32 :=
  match a with
  | .failed err => (err, none)
  | .response m =>
      if qmuxResult m ≠ 0 ∨ qmuxError m ≠ 0 then (freed, none) else (0, some (le32At m 23))

/-- As long as the memory keeps its contents, it is the function of the main loop. -/
theorem requestSetupDataCallFreed_eq {a : Answer} {freed : ℕ}
    (h : ∀ m, a = .response m → freed = qmuxError m) :
    requestSetupDataCallFreed a freed = requestSetupDataCall a := by
  cases a with
  | failed err => rfl
  | response m =>
      rw [requestSetupDataCallFreed, requestSetupDataCall, qmiRspCheck, h m rfl]
      split <;> rfl

theorem succeeded_response {m : List UInt8} :
    Succeeded (.response m) ↔ qmuxResult m = 0 ∧ qmuxError m = 0 := by
  constructor
  · rintro ⟨m', hm, hok⟩
    cases hm
    exact hok
  · exact fun hok => ⟨m, rfl, hok⟩

theorem not_succeeded_failed {err : ℤ} : ¬ Succeeded (.failed err) := by
  rintro ⟨m, hm, -⟩
  cases hm

/-- Without a response the return value is not 0 exactly when the transport says why. -/
theorem answer_failed {t : Transport} (h : ∀ m, t ≠ .response m) :
    ∃ err, t.answer = .failed err ∧ (err ≠ 0 ↔ t.Answers) := by
  cases t with
  | notComposed => exact ⟨einval, rfl, by simp [Transport.Answers, einval]⟩
  | sendFailed err herr => exact ⟨err, rfl, by simp [Transport.Answers, herr]⟩
  | timeout => exact ⟨etimedout, rfl, by simp [Transport.Answers, etimedout_ne_zero]⟩
  | quit => exact ⟨0, rfl, by simp [Transport.Answers]⟩
  | copyFailed => exact ⟨0, rfl, by simp [Transport.Answers]⟩
  | woken => exact ⟨0, rfl, by simp [Transport.Answers]⟩
  | response m => exact absurd rfl (h m)

theorem setup_iff (t : Transport) (freed : ℕ) :
    (((requestSetupDataCallFreed t.answer freed).1 = 0 ∨
        (requestSetupDataCallFreed t.answer freed).2 ≠ none) → Succeeded t.answer) ↔
      t.Answers ∧ ∀ m, t = .response m → ¬ (qmuxResult m = 0 ∧ qmuxError m = 0) → freed ≠ 0 := by
  by_cases hresponse : ∃ m, t = .response m
  · obtain ⟨m, rfl⟩ := hresponse
    simp only [Transport.answer, Transport.Answers, requestSetupDataCallFreed, succeeded_response,
      Transport.response.injEq, forall_eq', true_and]
    by_cases hok : qmuxResult m = 0 ∧ qmuxError m = 0
    · simp [hok]
    · have hbad : qmuxResult m ≠ 0 ∨ qmuxError m ≠ 0 := by omega
      simp [hbad, hok]
  · obtain ⟨err, hanswer, herr⟩ := answer_failed fun m hm => hresponse ⟨m, hm⟩
    rw [hanswer, requestSetupDataCallFreed, iff_false_intro not_succeeded_failed, ← herr]
    have hnone : ∀ m, t = .response m → ¬ (qmuxResult m = 0 ∧ qmuxError m = 0) → freed ≠ 0 :=
      fun m hm => absurd ⟨m, hm⟩ hresponse
    simp only [ne_eq, not_true_eq_false, or_false, imp_false]
    exact (and_iff_left hnone).symm

/-- What `qmi_rsp_check_and_return` lets through as 0. -/
theorem rspCheck_iff (t : Transport) :
    ((qmiRspCheck t.answer = .error 0 → False) ↔
      t.Answers ∧ ∀ m, t = .response m → NamesError m) := by
  by_cases hresponse : ∃ m, t = .response m
  · obtain ⟨m, rfl⟩ := hresponse
    simp only [Transport.answer, Transport.Answers, qmiRspCheck, NamesError,
      Transport.response.injEq, forall_eq', true_and]
    by_cases hok : qmuxResult m = 0 ∧ qmuxError m = 0
    · simp [hok]
    · have hbad : qmuxResult m ≠ 0 ∨ qmuxError m ≠ 0 := by omega
      rw [if_pos hbad]
      simp only [Except.error.injEq]
      constructor
      · intro hne _ hzero
        exact hne (by omega)
      · intro hnames hzero
        exact hnames (by omega) (by omega)
  · obtain ⟨err, hanswer, herr⟩ := answer_failed fun m hm => hresponse ⟨m, hm⟩
    rw [hanswer, qmiRspCheck, ← herr]
    have hnone : ∀ m, t = .response m → NamesError m := fun m hm => absurd ⟨m, hm⟩ hresponse
    simp only [Except.error.injEq, imp_false]
    exact (and_iff_left hnone).symm

theorem succeeded_of_rspCheck {a : Answer} {m : List UInt8} (h : qmiRspCheck a = .ok m) :
    Succeeded a := by
  cases a with
  | failed err => cases h
  | response m' =>
      rw [qmiRspCheck] at h
      split at h
      · cases h
      · rename_i hok
        exact succeeded_response.2 (by omega)

theorem not_succeeded_of_rspCheck {a : Answer} {err : ℤ} (h : qmiRspCheck a = .error err) :
    ¬ Succeeded a := by
  rintro ⟨m, rfl, hok⟩
  rw [qmiRspCheck, if_neg (by omega)] at h
  cases h

/-- Taking a call down: the two ways in which it can wrongly say 0. -/
theorem deactivate_iff (t : Transport) (handle : UInt32) :
    ((((requestDeactivateDefaultPDP t.answer handle).1 = 0 → Succeeded t.answer ∨ handle = 0) ∧
        ((requestDeactivateDefaultPDP t.answer handle).2 ≠ handle → Succeeded t.answer)) ↔
      handle = 0 ∨ (t.Answers ∧ ∀ m, t = .response m → NamesError m)) := by
  rw [← rspCheck_iff, requestDeactivateDefaultPDP]
  by_cases hzero : handle = 0
  · simp [hzero]
  · rw [if_neg hzero]
    cases hcheck : qmiRspCheck t.answer with
    | error err => simp [hzero, not_succeeded_of_rspCheck hcheck]
    | ok m => simp [hzero, succeeded_of_rspCheck hcheck]

theorem getIPAddress_iff (t : Transport) (f : IpFamily) (handle : UInt32) (p : Profile) :
    (((requestGetIPAddress t.answer f handle p).1 = 0 → Succeeded t.answer ∨ handle = 0) ↔
      handle = 0 ∨ (t.Answers ∧ ∀ m, t = .response m → NamesError m)) := by
  rw [← rspCheck_iff, requestGetIPAddress]
  by_cases hzero : handle = 0
  · simp [hzero]
  · rw [if_neg hzero]
    cases hcheck : qmiRspCheck t.answer with
    | error err => simp [hzero, not_succeeded_of_rspCheck hcheck]
    | ok m => simp [hzero, succeeded_of_rspCheck hcheck]

/-- **When 0 means that the modem has said so**: the thread is not woken without a response, and an
error response names its error; when a call is set up, the error has to be there after the response
has been freed.  The handles change in that case only. -/
theorem success_iff (t : Transport) (freed : ℕ) (handle : UInt32) (f : IpFamily) (p : Profile) :
    ((((requestSetupDataCallFreed t.answer freed).1 = 0 ∨
        (requestSetupDataCallFreed t.answer freed).2 ≠ none) → Succeeded t.answer) ↔
      t.Answers ∧ ∀ m, t = .response m → ¬ (qmuxResult m = 0 ∧ qmuxError m = 0) → freed ≠ 0) ∧
    ((((requestDeactivateDefaultPDP t.answer handle).1 = 0 → Succeeded t.answer ∨ handle = 0) ∧
        ((requestDeactivateDefaultPDP t.answer handle).2 ≠ handle → Succeeded t.answer)) ↔
      handle = 0 ∨ (t.Answers ∧ ∀ m, t = .response m → NamesError m)) ∧
    (((requestGetIPAddress t.answer f handle p).1 = 0 → Succeeded t.answer ∨ handle = 0) ↔
      handle = 0 ∨ (t.Answers ∧ ∀ m, t = .response m → NamesError m)) :=
  ⟨setup_iff t freed, deactivate_iff t handle, getIPAddress_iff t f handle p⟩

/-- A thread that is woken while the program quits. -/
theorem not_success :
    ¬ ∀ (t : Transport) (handle : UInt32),
      (requestDeactivateDefaultPDP t.answer handle).1 = 0 → Succeeded t.answer ∨ handle = 0 := by
  intro hall
  rcases hall .quit 1 rfl with hsucceeded | hzero
  · exact not_succeeded_failed hsucceeded
  · exact absurd hzero (by decide)

/-! ### The addresses after a failed query -/

/-- The record of this family is zero. -/
def Profile.Cleared (p : Profile) : IpFamily → Prop
  | .v4 => p.ipv4 = .zero
  | .v6 => p.ipv6 = .zero

instance (p : Profile) : (f : IpFamily) → Decidable (p.Cleared f)
  | .v4 => inferInstanceAs (Decidable (p.ipv4 = .zero))
  | .v6 => inferInstanceAs (Decidable (p.ipv6 = .zero))

theorem clearAddress_eq_iff (p : Profile) (f : IpFamily) :
    ((clearAddress p f).ipv4 = p.ipv4 ∧ (clearAddress p f).ipv6 = p.ipv6) ↔ p.Cleared f := by
  cases f with
  | v4 => exact ⟨fun h => h.1.symm, fun h => ⟨h.symm, rfl⟩⟩
  | v6 => exact ⟨fun h => h.2.symm, fun h => ⟨rfl, h.symm⟩⟩

section

variable {s : Cm} {f : IpFamily} {a : Answer} {err : ℤ}

/-- A query without success leaves a cleared record. -/
theorem getIPAddress_error (hcheck : qmiRspCheck a = .error err)
    (hhandle : s.wdsConnectionHandle f ≠ 0) :
    getIPAddress s f a = (err, s.setProfile (clearAddress s.profile f)) := by
  rw [getIPAddress, requestGetIPAddress, if_neg hhandle, hcheck]

/-- A query that fails counts as another address, and one without a response and without an error as
the address 0. -/
theorem checkIpv4Address_error (hcheck : qmiRspCheck a = .error err)
    (hhandle : s.wdsConnectionHandle .v4 ≠ 0) :
    (checkIpv4Address s a).1 = true ↔ err = 0 ∧ s.profile.ipv4.address = 0 := by
  have haddress : (s.setProfile (clearAddress s.profile .v4)).profile.ipv4.address = 0 := rfl
  rw [checkIpv4Address, getIPAddress_error hcheck hhandle]
  simp only [haddress, decide_eq_true_eq]
  exact and_congr_right fun _ => eq_comm

/-- Then the call is taken down. -/
theorem compareAddress_error {i : CheckInput} (hcheck : qmiRspCheck i.checkIpv4 = .error err)
    (hhandle : s.wdsConnectionHandle .v4 ≠ 0)
    (hconnected : s.connectionStatus .v4 = qwdsPktDataConnected) :
    .stopNetwork .v4 (s.wdsConnectionHandle .v4) ∉ (compareAddress s i).2 ↔
      err = 0 ∧ s.profile.ipv4.address = 0 := by
  rw [← checkIpv4Address_error hcheck hhandle, compareAddress, if_pos hconnected]
  have hkept : (checkIpv4Address s i.checkIpv4).2.wdsConnectionHandle =
      s.wdsConnectionHandle := rfl
  by_cases hsame : (checkIpv4Address s i.checkIpv4).1 = true
  · have hdown : ¬ (checkIpv4Address s i.checkIpv4).1 = false := by simp [hsame]
    dsimp only
    rw [if_neg hdown]
    exact iff_of_true List.not_mem_nil hsame
  · have hdown := Bool.eq_false_iff.2 hsame
    dsimp only
    rw [if_pos hdown]
    refine iff_of_false (not_not_intro ?_) hsame
    rw [deactivateDefaultPDP, hkept, if_neg hhandle]
    exact List.mem_singleton_self _

end

/-- **When a failed query leaves the profile and the call alone**: the record of the family has been
zero before, and for the address check nothing has been reported as an error. -/
theorem failedQuery_iff {s : Cm} {f : IpFamily} {a : Answer} {err : ℤ}
    (hcheck : qmiRspCheck a = .error err) (hhandle : s.wdsConnectionHandle f ≠ 0) :
    (((getIPAddress s f a).2.profile.ipv4 = s.profile.ipv4 ∧
        (getIPAddress s f a).2.profile.ipv6 = s.profile.ipv6) ↔ s.profile.Cleared f) ∧
    (f = .v4 → ((checkIpv4Address s a).1 = true ↔ err = 0 ∧ s.profile.ipv4.address = 0)) ∧
    (f = .v4 → s.connectionStatus .v4 = qwdsPktDataConnected →
      ∀ i : CheckInput, i.checkIpv4 = a →
        (.stopNetwork .v4 (s.wdsConnectionHandle .v4) ∉ (compareAddress s i).2 ↔
          err = 0 ∧ s.profile.ipv4.address = 0)) := by
  refine ⟨?_, ?_, ?_⟩
  · rw [getIPAddress_error hcheck hhandle]
    exact clearAddress_eq_iff s.profile f
  · rintro rfl
    exact checkIpv4Address_error hcheck hhandle
  · rintro rfl hconnected i rfl
    exact compareAddress_error hcheck hhandle hconnected

/-- A call that is up, with the address 10.0.0.2. -/
def callUp : Cm :=
  { start 64 { Profile.default true false with ipv4 := { Ipv4.zero with address := 0x0A000002 } } 1
      none (fun _ => 7) 0 with
    connectionStatus := fun _ => qwdsPktDataConnected }

/-- The address check of a call that is up times out. -/
theorem failedQuery_iff_timeout :
    ¬ ((getIPAddress callUp .v4 (.failed 110)).2.profile.ipv4 = callUp.profile.ipv4 ∧
        (getIPAddress callUp .v4 (.failed 110)).2.profile.ipv6 = callUp.profile.ipv6) ∧
      .stopNetwork .v4 7 ∈ (compareAddress callUp silentCheck).2 := by
  obtain ⟨hprofile, -, hcall⟩ := @failedQuery_iff callUp .v4 (.failed 110) 110 rfl (by decide)
  have hstop := hcall rfl rfl silentCheck rfl
  refine ⟨fun h => absurd (hprofile.1 h) (by decide), ?_⟩
  exact Decidable.by_contra fun hmem => absurd (hstop.1 hmem).1 (by decide)

theorem not_failedQuery :
    ¬ ∀ (s : Cm) (f : IpFamily) (a : Answer), (getIPAddress s f a).1 ≠ 0 →
      (getIPAddress s f a).2.profile.ipv4 = s.profile.ipv4 ∧
        (getIPAddress s f a).2.profile.ipv6 = s.profile.ipv6 := by
  intro hall
  have h := (hall callUp .v4 (.failed 110) (by decide)).1
  revert h
  decide

end QuectelCM

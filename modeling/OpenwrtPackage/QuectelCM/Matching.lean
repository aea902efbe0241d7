/-
**Which response belongs to a request.**

The reader takes a message for the response to the pending request when the service, the client and
the transaction id are the same.  It does not look whether the message is a response at all, and the
ids of `GetQMUXTransactionId` come again after 65535 requests.

* `QuectelCM.getQMUXTransactionId`, `QuectelCM.transactionId` — the ids, one for each call;
* `QuectelCM.Genuine` — what the modem sends: responses to requests that it has got, indications;
* `QuectelCM.Exchange.step` — calls with fresh ids, and genuine messages;
* `QuectelCM.Matched` — what a call has returned is the response to its request;
* `QuectelCM.Distinct` — while a request is pending, no indication looks like a response to it, and
  no response to a request of long ago that had the same id;
* `QuectelCM.matched_of_distinct` — **in a run whose messages can be told apart, each call returns
  the response to its own request**;
* `QuectelCM.not_matched` — an indication that is returned as a response.
-/
import Mathlib.Logic.Function.Iterate
import OpenwrtPackage.QuectelCM.Command

set_option relaxedAutoImplicit false
set_option autoImplicit false

namespace QuectelCM

open Qmi

/-! ### Transaction ids -/

/-- `GetQMUXTransactionId`: the new value of `TransactionId`. -/
def getQMUXTransactionId (transactionId : ℕ) : ℕ :=
  if 0xFFFF < transactionId + 1 then 1 else transactionId + 1

/-- The id of the call with this number. -/
def transactionId (call : ℕ) : ℕ := getQMUXTransactionId^[call + 1] 0

theorem transactionId_eq (call : ℕ) : transactionId call = call % 65535 + 1 := by
  induction call with
  | zero => rfl
  | succ call ih =>
      have hnext : transactionId (call + 1) = getQMUXTransactionId (transactionId call) :=
        Function.iterate_succ_apply' ..
      rw [hnext, ih, getQMUXTransactionId]
      split <;> omega

/-- Two calls have the same id when their numbers differ by a multiple of 65535. -/
theorem transactionId_eq_iff (m n : ℕ) :
    transactionId m = transactionId n ↔ m % 65535 = n % 65535 := by
  rw [transactionId_eq, transactionId_eq, Nat.add_right_cancel_iff]

/-! ### What the modem sends -/

/-- The messages are of the same service and the same client. -/
def SameClient (m n : List UInt8) : Prop :=
  qmiHdrQmiType m = qmiHdrQmiType n ∧ qmiHdrClientId m = qmiHdrClientId n

instance (m n : List UInt8) : Decidable (SameClient m n) := inferInstanceAs (Decidable (_ ∧ _))

/-- A response carries the ids of its request, and an indication is no response. -/
def Genuine (s : Command) (m : List UInt8) : Origin → Prop
  | .response call =>
      ∃ pRequest ∈ s.issued[call]?, SameClient pRequest m ∧
        qmuxTransactionId pRequest = qmuxTransactionId m ∧ qmuxCtlFlags m = qmuxCtlFlagTypeRsp
  | .indication => qmuxCtlFlags m ≠ qmuxCtlFlagTypeRsp

instance (s : Command) (m : List UInt8) : (o : Origin) → Decidable (Genuine s m o)
  | .response call => inferInstanceAs (Decidable (∃ pRequest ∈ s.issued[call]?, _))
  | .indication => inferInstanceAs (Decidable (_ ≠ _))

/-- A call has a fresh id of QMUX, and a message is genuine. -/
def Promised (s : Command) : CommandEvent → Prop
  | .call pRequest _ _ _ =>
      qmiHdrQmiType pRequest ≠ qmuxTypeCtl ∧
        qmuxTransactionId pRequest = transactionId s.issued.length
  | .recv r _ => Genuine s r.msg r.origin
  | _ => True

instance (s : Command) : (e : CommandEvent) → Decidable (Promised s e)
  | .call .. => inferInstanceAs (Decidable (_ ∧ _))
  | .recv r _ => inferInstanceAs (Decidable (Genuine s r.msg r.origin))
  | .recvNull | .expire | .wake | .resume => inferInstanceAs (Decidable True)

/-- A step of the two threads with what is promised of calls and messages. -/
def Exchange.step (s : Command) (e : CommandEvent) : Option Command :=
  if Promised s e then s.step e else none

/-! ### What should hold of a call -/

/-- What a call has returned is a response, to its own request. -/
def Matched (s : Command) : Prop :=
  ∀ c ∈ s.returned, ∀ r, c.response = some r → r.origin = .response c.call

/-- A message of the same service and client can be told from the response to the call that is going
on: an indication has another transaction id, and so has a response to an earlier call. -/
def DistinctFrom (s : Command) (pRequest m : List UInt8) : Origin → Prop
  | .indication => SameClient pRequest m → qmuxTransactionId pRequest ≠ qmuxTransactionId m
  | .response call =>
      SameClient pRequest m → call % 65535 = (s.issued.length - 1) % 65535 →
        call = s.issued.length - 1

instance (s : Command) (pRequest m : List UInt8) :
    (o : Origin) → Decidable (DistinctFrom s pRequest m o)
  | .indication => inferInstanceAs (Decidable (_ → _))
  | .response _ => inferInstanceAs (Decidable (_ → _ → _))

/-- While a request is pending, every message can be told from its response. -/
def Distinct (s : Command) : CommandEvent → Prop
  | .recv r _ =>
      s.caller ≠ .idle → ∀ pRequest ∈ s.sRequest, DistinctFrom s pRequest r.msg r.origin
  | _ => True

instance (s : Command) : (e : CommandEvent) → Decidable (Distinct s e)
  | .recv .. => inferInstanceAs (Decidable (_ → ∀ pRequest ∈ s.sRequest, _))
  | .call .. | .recvNull | .expire | .wake | .resume => inferInstanceAs (Decidable True)

/-! ### The invariant -/

structure Matching (s : Command) : Prop where
  matched : Matched s
  ids : ∀ call pRequest, s.issued[call]? = some pRequest →
    qmiHdrQmiType pRequest ≠ qmuxTypeCtl ∧ qmuxTransactionId pRequest = transactionId call
  /-- the pending request is the one of the last call -/
  pending : ∀ pRequest ∈ s.sRequest, s.issued[s.issued.length - 1]? = some pRequest
  /-- what a call finds in `s_pResponse` is its response -/
  stored : s.caller ≠ .idle → ∀ r ∈ s.sResponse, r.origin = .response (s.issued.length - 1)

theorem matching_start : Matching .start := by
  constructor <;> simp [Command.start, Matched]

/-- `is_response` for a request of QMUX. -/
theorem isResponse_iff {pRequest m : List UInt8} (h : qmiHdrQmiType pRequest ≠ qmuxTypeCtl) :
    isResponse pRequest m = true ↔
      SameClient pRequest m ∧ qmuxTransactionId pRequest = qmuxTransactionId m := by
  simp [isResponse, SameClient, h, and_assoc]

/-- A message that is distinct from the response to the call, and is taken for it, is it. -/
theorem origin_of_isResponse {s : Command} {pRequest : List UInt8} {r : Received}
    (h : Matching s) (hpending : s.sRequest = some pRequest)
    (hgenuine : Genuine s r.msg r.origin) (hdistinct : DistinctFrom s pRequest r.msg r.origin)
    (hresponse : isResponse pRequest r.msg = true) :
    r.origin = .response (s.issued.length - 1) := by
  obtain ⟨hqmux, hid⟩ := h.ids _ _ (h.pending pRequest hpending)
  obtain ⟨hclient, hsame⟩ := (isResponse_iff hqmux).1 hresponse
  cases horigin : r.origin with
  | indication =>
      rw [horigin] at hdistinct
      exact absurd hsame (hdistinct hclient)
  | response call =>
      rw [horigin] at hgenuine hdistinct
      obtain ⟨pEarlier, hissued, -, hearlier, -⟩ := hgenuine
      have hids : transactionId call = transactionId (s.issued.length - 1) := by
        rw [← (h.ids call pEarlier hissued).2, hearlier, ← hsame, hid]
      rw [hdistinct hclient ((transactionId_eq_iff ..).1 hids)]

/-! ### Steps -/

theorem matching_finish {s : Command} {ret : ℤ} {wanted : Bool} {response : Option Received}
    (h : Matching s) (hlast : ∀ r ∈ response, r.origin = .response (s.issued.length - 1)) :
    Matching (s.finish ret wanted response) := by
  refine ⟨fun c hc r hr => ?_, h.ids, h.pending, fun hidle => absurd rfl hidle⟩
  simp only [Command.finish, List.mem_append, List.mem_singleton] at hc
  rcases hc with hc | rfl
  · exact h.matched c hc r hr
  · exact hlast r hr

theorem matching_sendQMITimeout {s : Command} {pRequest : List UInt8} (h : Matching s)
    (hqmux : qmiHdrQmiType pRequest ≠ qmuxTypeCtl)
    (hid : qmuxTransactionId pRequest = transactionId s.issued.length) (wanted : Bool)
    (msecs : UInt32) (sent : ℤ) : Matching (sendQMITimeout s pRequest wanted msecs sent) := by
  have hids : ∀ call request, (s.issued ++ [pRequest])[call]? = some request →
      qmiHdrQmiType request ≠ qmuxTypeCtl ∧ qmuxTransactionId request = transactionId call := by
    intro call request hget
    rcases Nat.lt_trichotomy call s.issued.length with hlt | rfl | hgt
    · rw [List.getElem?_append_left hlt] at hget
      exact h.ids call request hget
    · rw [List.getElem?_concat_length] at hget
      obtain rfl := Option.some.inj hget
      exact ⟨hqmux, hid⟩
    · rw [List.getElem?_eq_none (by simp; omega)] at hget
      simp at hget
  have hsent : Matching { s with
      sRequest := some pRequest
      sResponse := none
      issued := s.issued ++ [pRequest]
      stored := none } :=
    ⟨h.matched, hids, by simp, by simp⟩
  unfold sendQMITimeout
  dsimp only
  split
  · exact ⟨hsent.matched, hsent.ids, hsent.pending, by simp⟩
  · exact matching_finish hsent (by simp)

theorem matching_signal {s : Command} (h : Matching s) : Matching s.signal := by
  refine ⟨?_, ?_, ?_, ?_⟩
  · rw [Matched, signal_returned]
    exact h.matched
  · rw [signal_issued]
    exact h.ids
  · rw [signal_issued, signal_sRequest]
    exact h.pending
  · rw [signal_issued, signal_sResponse, ne_eq, signal_caller_idle]
    exact h.stored

theorem matching_recvQMI {s : Command} {r : Received} (h : Matching s)
    (hgenuine : Genuine s r.msg r.origin)
    (hdistinct : s.caller ≠ .idle → ∀ pRequest ∈ s.sRequest,
      DistinctFrom s pRequest r.msg r.origin) (malloc : Bool) :
    Matching (recvQMI s r malloc) := by
  unfold recvQMI
  split
  · rename_i pRequest hpending
    split
    · rename_i hresponse
      refine matching_signal ⟨h.matched, h.ids, by simp, fun hcall r' hr' => ?_⟩
      have horigin :=
        origin_of_isResponse h hpending hgenuine (hdistinct hcall _ hpending) hresponse
      obtain ⟨-, rfl⟩ : malloc = true ∧ r = r' := by simpa using hr'
      exact horigin
    · exact h
  · exact h

theorem matching_step {s t : Command} {e : CommandEvent} (h : Matching s) (hdistinct : Distinct s e)
    (hs : Exchange.step s e = some t) : Matching t := by
  obtain ⟨hpromised, hs⟩ := Option.ite_none_right_eq_some.1 hs
  cases e with
  | call pRequest wanted msecs sent =>
      obtain ⟨-, rfl⟩ := step_call hs
      exact matching_sendQMITimeout h hpromised.1 hpromised.2 wanted msecs sent
  | recv r malloc =>
      obtain rfl := Option.some.inj hs
      exact matching_recvQMI h hpromised hdistinct malloc
  | recvNull =>
      obtain rfl := Option.some.inj hs
      unfold recvNull
      split
      · exact matching_signal ⟨h.matched, h.ids, by simp, by simp⟩
      · exact h
  | expire =>
      obtain ⟨p, hcaller, rfl⟩ := step_expire hs
      exact ⟨h.matched, h.ids, h.pending, fun _ => h.stored (by simp [hcaller])⟩
  | wake =>
      obtain ⟨p, hcaller, rfl⟩ := step_wake hs
      exact ⟨h.matched, h.ids, h.pending, fun _ => h.stored (by simp [hcaller])⟩
  | resume =>
      obtain ⟨p, hcaller, rfl⟩ | ⟨p, hcaller, rfl | rfl⟩ := step_resume hs
      · have hkept : ∀ r ∈ if p.wanted then s.sResponse else none,
            r.origin = .response (s.issued.length - 1) := by
          intro r hr
          split at hr
          · exact h.stored (by simp [hcaller]) r hr
          · simp at hr
        exact matching_finish ⟨h.matched, h.ids, h.pending, fun _ => hkept⟩ hkept
      · exact ⟨h.matched, h.ids, h.pending, fun _ => h.stored (by simp [hcaller])⟩
      · exact matching_finish h (by simp)

/-! ### Whole runs -/

/-- **In a run of calls with fresh ids and of genuine messages, each call returns the response to
its own request, if every message that comes while a request is pending can be told from its
response.** -/
theorem matched_of_distinct (evs : List CommandEvent)
    (hdistinct : ∀ m ∈ EventRun.moves Exchange.step .start evs, Distinct m.1 m.2) :
    ∀ s ∈ EventRun.states Exchange.step .start evs, Matched s := fun s hs =>
  (EventRun.guarded_invariant Matching Distinct (fun _ _ _ h hok hstep => matching_step h hok hstep)
    matching_start hdistinct s hs).matched

/-- An indication of the same service to the same client, with this transaction id. -/
def packetStatusInd (transactionId : UInt8) : List UInt8 :=
  [0x01, 17, 0, 0x80, 0x01, 1, 0x04, transactionId, 0, 0x22, 0, 5, 0, 0x01, 2, 0, 1, 0]

/-- An indication with another id comes before the response. -/
theorem matched_indication :
    (∃ s ∈ EventRun.states Exchange.step .start
      [.call wdsRequest true 30000 0, .recv ⟨packetStatusInd 9, .indication⟩ true,
        .recv ⟨wdsResponse, .response 0⟩ true, .resume], s.returned ≠ []) ∧
    ∀ s ∈ EventRun.states Exchange.step .start
      [.call wdsRequest true 30000 0, .recv ⟨packetStatusInd 9, .indication⟩ true,
        .recv ⟨wdsResponse, .response 0⟩ true, .resume], Matched s :=
  ⟨by decide +kernel, matched_of_distinct _ (by decide +kernel)⟩

/-- The first call returns an indication. -/
theorem not_matched : ¬ ∀ evs, ∀ s ∈ EventRun.states Exchange.step .start evs, Matched s := by
  intro hall
  let evs : List CommandEvent :=
    [.call wdsRequest true 30000 0, .recv ⟨packetStatusInd 1, .indication⟩ true, .resume]
  have hlast : ∃ s ∈ EventRun.states Exchange.step .start evs, ∃ c ∈ s.returned,
      c.response = some ⟨packetStatusInd 1, .indication⟩ := by
    decide +kernel
  obtain ⟨s, hs, c, hc, hresponse⟩ := hlast
  exact Origin.noConfusion (hall evs s hs c hc _ hresponse)

end QuectelCM

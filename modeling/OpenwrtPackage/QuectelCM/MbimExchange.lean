/-
**Which MBIM message answers a request.**

A thread composes a request, writes it and waits; the reader takes a message for the response when
it has the transaction id of the request that is pending, whatever kind of message it is.  Responses
can be late, when the thread has stopped waiting, and the ids come again after 16777215 requests.

* `QuectelCM.MbimExchange`, `QuectelCM.MbimExchange.step` — the thread, the reader, and what the
  device sends: responses to requests that it has got, and indications, whose id is 0;
* `QuectelCM.MbimExchange.Answered` — what a call has returned is the response to its own request;
* `QuectelCM.MbimExchange.Careful` — the device is open when the counter starts again, and no
  response comes while a much later request with the same id is pending;
* `QuectelCM.MbimExchange.Numbered` — the ids are those of the calls;
* `QuectelCM.MbimExchange.answered_of_careful` — **in a careful run no call returns an indication,
  or the response to another request**.
-/
import OpenwrtPackage.QuectelCM.Command
import OpenwrtPackage.QuectelCM.TransactionIds

set_option relaxedAutoImplicit false
set_option autoImplicit false

namespace QuectelCM

open Memory Host MbimCM

/-! ### The steps -/

/-- A message, and why the device has sent it. -/
structure MbimReceived where
  msg : ℕ → UInt8
  origin : Origin

/-- A call that has returned: its number, what it has returned, and `*ppCmdDone`. -/
structure MbimReturned where
  call : ℕ
  ret : ℤ
  cmdDone : Option MbimReceived

structure MbimExchange where
  sender : MbimSender
  /-- with `mbim_pRequest` -/
  reader : MbimReader
  /-- `mbim_pResponse` -/
  mbimPResponse : Option MbimReceived
  /-- the thread waits; `ppCmdDone` is not `NULL` -/
  waiting : Option Bool
  /-- the ids of all requests that have been composed, if they have been written -/
  ids : List (Option UInt32)
  returned : List MbimReturned

/-- What can happen.  The wait ends when the condition is signalled, or for no reason, and when its
time is over. -/
inductive MbimExchangeEvent where
  | device (mbimFd : ℤ) (sTidReader : ℕ)
  | call (r : MbimRequest) (mem : Option (ℕ → UInt8)) (wanted taken : Bool)
  | recv (m : MbimReceived) (alloc : Bool)
  | wake
  | expire

namespace MbimExchange

def start (reader : MbimReader) : MbimExchange :=
  ⟨⟨-1, 0, 1⟩, { reader with mbimPRequest := none }, none, none, [], []⟩

/-- The end of `mbim_send_command`. -/
def finish (s : MbimExchange) (ret : ℤ) (cmdDone : Option MbimReceived) : MbimExchange :=
  { s with
    reader := { s.reader with mbimPRequest := none }
    mbimPResponse := none
    waiting := none
    returned := s.returned ++ [⟨s.ids.length - 1, ret, cmdDone⟩] }

/-- A request is composed, and `mbim_send_command` is called with it, up to the wait. -/
def call (s : MbimExchange) (r : MbimRequest) (mem : Option (ℕ → UInt8)) (wanted taken : Bool) :
    MbimExchange :=
  let composed := compose .little s.sender.transactionId mem r
  let s := { s with sender := { s.sender with transactionId := composed.2 } }
  match mbimSendCommandOn .little s.sender composed.1 with
  | .error _ => if mem.isSome then { s with ids := s.ids ++ [none] } else s
  | .ok ((transactionId, pRequest), _) =>
      let s := { s with sender := { s.sender with transactionId := transactionId } }
      if taken then
        { s with
          reader := { s.reader with mbimPRequest := some pRequest }
          mbimPResponse := none
          waiting := some wanted
          ids := s.ids ++ [some (field32 pRequest transactionIdAt)] }
      else { s with ids := s.ids ++ [none] }.finish (-1) none

/-- `mbim_recv_command`, as far as the response goes. -/
def recv (s : MbimExchange) (m : MbimReceived) (alloc : Bool) : MbimExchange :=
  if AnswersOn .little s.reader m.msg then
    { s with mbimPResponse := if alloc then some m else none }
  else s

/-- A response carries the id of its request, and an indication the id 0. -/
def Genuine (s : MbimExchange) (m : MbimReceived) : Prop :=
  match m.origin with
  | .response call => s.ids[call]? = some (some (field32 m.msg transactionIdAt))
  | .indication => field32 m.msg transactionIdAt = 0

instance (s : MbimExchange) : (m : MbimReceived) → Decidable (Genuine s m)
  | ⟨_, .response _⟩ => inferInstanceAs (Decidable (_ = _))
  | ⟨_, .indication⟩ => inferInstanceAs (Decidable (_ = _))

/-- One event, if it can happen. -/
def step (s : MbimExchange) : MbimExchangeEvent → Option MbimExchange
  | .device mbimFd sTidReader =>
      some { s with sender := { s.sender with mbimFd := mbimFd, sTidReader := sTidReader } }
  | .call r mem wanted taken =>
      if s.waiting.isSome then none else some (s.call r mem wanted taken)
  | .recv m alloc => if Genuine s m then some (s.recv m alloc) else none
  | .wake => s.waiting.map fun wanted => s.finish 0 (if wanted then s.mbimPResponse else none)
  | .expire => s.waiting.map fun _ => s.finish etimedout none

/-! ### What should hold -/

/-- What a call has returned is the response to its own request. -/
def Answered (s : MbimExchange) : Prop :=
  ∀ c ∈ s.returned, ∀ m, c.cmdDone = some m → m.origin = .response c.call

/-- How many ids there are. -/
def idCount : ℕ := 0xFFFFFF

/-- The response to an earlier request has another id than the last request. -/
def NotStale (s : MbimExchange) : Origin → Prop
  | .response call =>
      call % idCount = (s.ids.length - 1) % idCount → call = s.ids.length - 1
  | .indication => True

instance (s : MbimExchange) : (o : Origin) → Decidable (NotStale s o)
  | .response _ => inferInstanceAs (Decidable (_ → _))
  | .indication => inferInstanceAs (Decidable True)

instance (s : MbimSender) : Decidable (Sends s) := inferInstanceAs (Decidable (_ ∧ _))

/-- The device is open when the counter starts again, and no response comes while a much later
request with the same id is pending. -/
def Careful (s : MbimExchange) : MbimExchangeEvent → Prop
  | .call _ mem _ _ => mem.isSome → s.sender.transactionId = wrapTransactionId → Sends s.sender
  | .recv m _ => NotStale s m.origin
  | _ => True

instance (s : MbimExchange) : (e : MbimExchangeEvent) → Decidable (Careful s e)
  | .call .. => inferInstanceAs (Decidable (_ → _ → _))
  | .recv m _ => inferInstanceAs (Decidable (NotStale s m.origin))
  | .device .. | .wake | .expire => inferInstanceAs (Decidable True)

/-! ### The invariant -/

/-- The counter, when this many requests have been composed: it starts again when it is needed. -/
def CounterAt (transactionId : UInt32) (n : ℕ) : Prop :=
  transactionId.toNat = n % idCount + 1 ∨
    transactionId = wrapTransactionId ∧ n % idCount = 0 ∧ 0 < n

structure Numbered (s : MbimExchange) : Prop where
  answered : Answered s
  counter : CounterAt s.sender.transactionId s.ids.length
  ids : ∀ call id, s.ids[call]? = some (some id) → id.toNat = call % idCount + 1
  /-- the pending request is the last one -/
  pending : ∀ pRequest ∈ s.reader.mbimPRequest,
    s.ids[s.ids.length - 1]? = some (some (field32 pRequest transactionIdAt))
  stored : ∀ m ∈ s.mbimPResponse, m.origin = .response (s.ids.length - 1)
  idle : s.waiting = none → s.reader.mbimPRequest = none ∧ s.mbimPResponse = none

theorem numbered_start (reader : MbimReader) : Numbered (start reader) := by
  refine ⟨fun c hc => absurd hc List.not_mem_nil, Or.inl rfl, ?_, ?_, ?_, fun _ => ⟨rfl, rfl⟩⟩
  · intro call id h
    cases h
  · intro pRequest h
    cases h
  · intro m h
    cases h

/-- The id that a request is sent with, and the counter behind it. -/
theorem carriedId_of_counterAt {transactionId : UInt32} {n : ℕ} (h : CounterAt transactionId n) :
    (carriedId .little transactionId).toNat = n % idCount + 1 ∧
      CounterAt (carriedId .little transactionId + 1) (n + 1) := by
  have hwrap : wrapTransactionId.toNat = 0x1000000 := rfl
  rcases h with h | ⟨rfl, hzero, hpos⟩
  · rw [idCount] at h
    have hne : transactionId ≠ wrapTransactionId := by
      rintro rfl
      rw [hwrap] at h
      omega
    have hcarried : carriedId .little transactionId = transactionId := if_neg hne
    have hsucc : (transactionId + 1).toNat = transactionId.toNat + 1 := by
      rw [UInt32.toNat_add, UInt32.toNat_one]
      omega
    rw [hcarried, CounterAt, hsucc, idCount]
    refine ⟨h, ?_⟩
    by_cases hlast : n % 0xFFFFFF + 1 = 0xFFFFFF
    · refine Or.inr ⟨?_, by omega, Nat.succ_pos n⟩
      rw [← UInt32.toNat_inj, hsucc, hwrap]
      omega
    · left
      omega
  · have hcarried : carriedId .little wrapTransactionId = 1 := by decide
    rw [hcarried, hzero]
    refine ⟨rfl, Or.inl ?_⟩
    have htwo : (1 + 1 : UInt32).toNat = 2 := rfl
    rw [idCount] at hzero ⊢
    omega

/-- A counter that has not run out goes on. -/
theorem counterAt_succ {transactionId : UInt32} {n : ℕ} (h : CounterAt transactionId n)
    (hne : transactionId ≠ wrapTransactionId) : CounterAt (transactionId + 1) (n + 1) := by
  have hcarried : carriedId .little transactionId = transactionId := if_neg hne
  have hnext := (carriedId_of_counterAt h).2
  rw [hcarried] at hnext
  exact hnext

/-! ### The steps keep it -/

section Steps

variable {s : MbimExchange}

/-- The ids after one more request. -/
theorem ids_concat {ids : List (Option UInt32)} {new : Option UInt32}
    (h : ∀ call id, ids[call]? = some (some id) → id.toNat = call % idCount + 1)
    (hnew : ∀ id ∈ new, id.toNat = ids.length % idCount + 1) (call : ℕ) (id : UInt32)
    (hget : (ids ++ [new])[call]? = some (some id)) : id.toNat = call % idCount + 1 := by
  rcases Nat.lt_trichotomy call ids.length with hlt | rfl | hgt
  · rw [List.getElem?_append_left hlt] at hget
    exact h call id hget
  · rw [List.getElem?_concat_length, Option.some.injEq] at hget
    exact hnew id hget
  · rw [List.getElem?_eq_none (by simp; omega)] at hget
    cases hget

/-- A call that is over. -/
theorem Numbered.finish (h : Numbered s) {ret : ℤ} {cmdDone : Option MbimReceived}
    (hlast : ∀ m ∈ cmdDone, m.origin = .response (s.ids.length - 1)) :
    Numbered (s.finish ret cmdDone) := by
  refine ⟨?_, h.counter, h.ids, fun _ h => absurd h (by simp [MbimExchange.finish]),
    fun _ h => absurd h (by simp [MbimExchange.finish]), fun _ => ⟨rfl, rfl⟩⟩
  intro c hc m hm
  rcases List.mem_append.1 hc with hc | hc
  · exact h.answered c hc m hm
  · rw [List.mem_singleton.1 hc] at hm ⊢
    exact hlast m hm

/-- A request is not sent: its id is lost. -/
theorem call_refused (h : ¬ Sends s.sender) (r : MbimRequest) (mem : ℕ → UInt8)
    (wanted taken : Bool) :
    s.call r (some mem) wanted taken =
      { s with
        sender := { s.sender with transactionId := s.sender.transactionId + 1 }
        ids := s.ids ++ [none] } := by
  obtain ⟨pRequest, hcompose, -⟩ := compose_some .little s.sender.transactionId mem r
  unfold call mbimSendCommandOn
  rw [hcompose]
  dsimp only
  by_cases hfd : s.sender.mbimFd ≤ 0
  · rw [if_pos hfd]
    rfl
  · have htid : s.sender.sTidReader = 0 := by
      by_contra hreader
      exact h ⟨Int.not_le.1 hfd, hreader⟩
    rw [if_neg hfd, if_pos htid]
    rfl

/-- A request is sent, and the thread waits if all of it has been written. -/
theorem call_sent (h : Sends s.sender) (r : MbimRequest) (mem : ℕ → UInt8) (wanted taken : Bool) :
    ∃ pRequest : ℕ → UInt8,
      field32 pRequest transactionIdAt = carriedId .little s.sender.transactionId ∧
      s.call r (some mem) wanted taken =
        let s' : MbimExchange := { s with
          sender := { s.sender with
            transactionId := carriedId .little s.sender.transactionId + 1 } }
        if taken then
          { s' with
            reader := { s.reader with mbimPRequest := some pRequest }
            mbimPResponse := none
            waiting := some wanted
            ids := s.ids ++ [some (carriedId .little s.sender.transactionId)] }
        else { s' with ids := s.ids ++ [none] }.finish (-1) none := by
  obtain ⟨pRequest, hcompose, hid⟩ := compose_some .little s.sender.transactionId mem r
  obtain ⟨hcounter, hcarried⟩ := wrapOn_eq .little hid
  refine ⟨(wrapOn .little (s.sender.transactionId + 1) pRequest).2, hcarried, ?_⟩
  unfold call mbimSendCommandOn
  rw [hcompose]
  dsimp only
  rw [if_neg (Int.not_le.2 h.1), if_neg h.2]
  dsimp only
  rw [hcounter, hcarried]

/-- Without memory there is no request. -/
theorem call_none (s : MbimExchange) (r : MbimRequest) (wanted taken : Bool) :
    s.call r none wanted taken = s := by
  obtain ⟨err, herr⟩ := mbimSendCommandOn_none .little
    { s.sender with transactionId := s.sender.transactionId }
  unfold call
  rw [compose_none]
  dsimp only
  rw [herr]
  rfl

theorem Numbered.call (h : Numbered s) (hidle : s.waiting = none) (r : MbimRequest)
    {mem : Option (ℕ → UInt8)}
    (hwrap : mem.isSome → s.sender.transactionId = wrapTransactionId → Sends s.sender)
    (wanted taken : Bool) : Numbered (s.call r mem wanted taken) := by
  obtain ⟨hrequest, hresponse⟩ := h.idle hidle
  -- a call that leaves no request behind
  have hnone : ∀ {sender : MbimSender}, CounterAt sender.transactionId (s.ids.length + 1) →
      Numbered { s with sender := sender, ids := s.ids ++ [none] } := by
    intro sender hcounter
    refine ⟨h.answered, ?_, ids_concat h.ids fun _ hid => absurd hid (by simp), ?_, ?_,
      fun _ => ⟨hrequest, hresponse⟩⟩
    · rw [List.length_append, List.length_singleton]
      exact hcounter
    · simp [hrequest]
    · simp [hresponse]
  cases mem with
  | none =>
      rw [call_none]
      exact h
  | some mem =>
      by_cases hsends : Sends s.sender
      · obtain ⟨hcarried, hnext⟩ := carriedId_of_counterAt h.counter
        obtain ⟨pRequest, hid, hcall⟩ := call_sent hsends r mem wanted taken
        rw [hcall]
        cases taken with
        | true =>
            refine ⟨h.answered, ?_, ids_concat h.ids ?_, ?_, fun _ hm => absurd hm (by simp),
              fun hwait => absurd hwait (by simp)⟩
            · rw [if_pos rfl, List.length_append, List.length_singleton]
              exact hnext
            · intro id hmem
              rw [← Option.some.inj hmem]
              exact hcarried
            · intro p hp
              obtain rfl := Option.some.inj hp
              simp [hid]
        | false =>
            exact (hnone hnext).finish fun _ hm => absurd hm (by simp)
      · rw [call_refused hsends]
        exact hnone (counterAt_succ h.counter fun hlast => hsends (hwrap rfl hlast))

/-- A message that is taken for the response, when all is as it should be. -/
theorem Numbered.recv (h : Numbered s) {m : MbimReceived} (hgenuine : Genuine s m)
    (hcareful : NotStale s m.origin) (alloc : Bool) : Numbered (s.recv m alloc) := by
  rw [MbimExchange.recv]
  split
  · next hanswers =>
      obtain ⟨pRequest, hpending, hsame⟩ := (answersOn_iff ..).1 hanswers
      refine ⟨h.answered, h.counter, h.ids, h.pending, ?_, fun hidle => ?_⟩
      swap
      · rw [(h.idle hidle).1] at hpending
        cases hpending
      intro m' hm'
      have hid := h.ids _ _ (h.pending pRequest hpending)
      cases alloc with
      | false => cases hm'
      | true =>
          obtain rfl := Option.some.inj hm'
          rw [hsame] at hid
          rw [Genuine] at hgenuine
          cases horigin : m.origin with
          | indication =>
              rw [horigin] at hgenuine
              simp only at hgenuine
              rw [hgenuine] at hid
              exact absurd hid (Nat.succ_ne_zero _).symm
          | response call =>
              rw [horigin] at hgenuine hcareful
              have hcall := h.ids _ _ hgenuine
              rw [hcareful (by omega)]
  · exact h

/-- **One step.** -/
theorem Numbered.step (h : Numbered s) {e : MbimExchangeEvent} (hcareful : Careful s e)
    {t : MbimExchange} (ht : s.step e = some t) : Numbered t := by
  cases e with
  | device mbimFd sTidReader =>
      cases ht
      exact ⟨h.answered, h.counter, h.ids, h.pending, h.stored, h.idle⟩
  | call r mem wanted taken =>
      rw [MbimExchange.step] at ht
      split at ht
      · cases ht
      · next hidle =>
          cases ht
          exact h.call (Option.not_isSome_iff_eq_none.1 hidle) r hcareful wanted taken
  | recv m alloc =>
      obtain ⟨hgenuine, ht⟩ := Option.ite_none_right_eq_some.1 ht
      cases ht
      exact h.recv hgenuine hcareful alloc
  | wake =>
      obtain ⟨wanted, -, rfl⟩ := Option.map_eq_some_iff.1 ht
      refine h.finish fun m hm => ?_
      cases wanted with
      | false => cases hm
      | true => exact h.stored m hm
  | expire =>
      obtain ⟨wanted, -, rfl⟩ := Option.map_eq_some_iff.1 ht
      exact h.finish fun _ hm => absurd hm (by simp)

end Steps

/-- **In a careful run no call returns an indication, or the response to another request**, however
late the responses are and whenever a wait ends. -/
theorem answered_of_careful (reader : MbimReader) (evs : List MbimExchangeEvent)
    (hcareful : ∀ p ∈ EventRun.moves step (start reader) evs, Careful p.1 p.2) :
    ∀ s ∈ EventRun.states step (start reader) evs, Answered s := fun s hs =>
  (EventRun.guarded_invariant Numbered Careful (fun _ _ _ h hok hstep => h.step hok hstep)
    (numbered_start reader) hcareful s hs).answered

/-- A message with an id, and nothing else. -/
def bareMessage (id : UInt32) (origin : Origin) : MbimReceived :=
  ⟨store (fun _ => 0) transactionIdAt (Bytes.le32 id), origin⟩

/-- The device is not opened in time; its response comes while the program waits for another. -/
def lateRun : List MbimExchangeEvent :=
  [.device 3 1, .call (.openDevice 4096) (some fun _ => 0) true true, .expire,
    .call .closeDevice (some fun _ => 0) true true, .recv (bareMessage 1 (.response 0)) true,
    .recv (bareMessage 0 .indication) true, .recv (bareMessage 2 (.response 1)) true, .wake]

theorem answered_of_careful_late :
    (∃ s ∈ EventRun.states step (start ⟨none, 0, 0, 0, 0, 0⟩) lateRun,
      ∃ c ∈ s.returned, c.cmdDone.isSome) ∧
    ∀ s ∈ EventRun.states step (start ⟨none, 0, 0, 0, 0, 0⟩) lateRun, Answered s :=
  ⟨by decide +kernel, answered_of_careful ⟨none, 0, 0, 0, 0, 0⟩ lateRun (by decide +kernel)⟩

end MbimExchange

end QuectelCM

/-
**The MBIM reader and sender on either host.**

The fields of an MBIM message are little-endian.  The reader thread converts each field that it
looks at but one: the session of a connect indication is compared as it was read.  The sender looks
at the transaction id of a request, which has been converted already, to see whether the counter has
run out of the ids that the proxy leaves to it.

* `QuectelCM.mbimRecvCommandOn` — `mbim_recv_command` on a host;
* `QuectelCM.mbimSendCommandOn` — `mbim_send_command` on a host, up to its `write`;
* `QuectelCM.recv_agree_iff` — **the messages that raise the same events on both hosts**;
* `QuectelCM.send_agree_iff` — **the requests that both hosts send alike**.

A message lies in memory from the address 0 on.  Memory for a response is there.
-/
import Mathlib.Data.Int.Notation
import OpenwrtPackage.Lib.HostOrder

set_option relaxedAutoImplicit false
set_option autoImplicit false

namespace QuectelCM

open Bytes Memory Host

/-! ### Constants -/

def mbimIndicateStatusMsg : UInt32 := 0x80000007

/-- `str2uuid(UUID_BASIC_CONNECT)` -/
def uuidBasicConnect : List UInt8 :=
  [0xa2, 0x89, 0xcc, 0x33, 0xbc, 0xbb, 0x8b, 0x4f, 0xb6, 0xb0, 0x13, 0x3e, 0xc2, 0xaa, 0xe6, 0xdf]

def mbimCidSubscriberReadyStatus : UInt32 := 2

def mbimCidRegisterState : UInt32 := 9

def mbimCidPacketService : UInt32 := 10

def mbimCidConnect : UInt32 := 12

/-- The first transaction id that is not left to the program. -/
def wrapTransactionId : UInt32 := 0xFFFFFF + 1

/-! ### The reader -/

/-- What `qmidevice_send_event_to_main` sends. -/
inductive Unsol where
  /-- `RIL_UNSOL_RESPONSE_VOICE_NETWORK_STATE_CHANGED` -/
  | voiceNetworkStateChanged
  /-- `RIL_UNSOL_DATA_CALL_LIST_CHANGED` -/
  | dataCallListChanged
  deriving DecidableEq

/-- What the reader does with a message. -/
inductive ReaderAction where
  /-- `pthread_cond_signal` -/
  | signal
  /-- a copy for the thread that waits for a response -/
  | response (bytes : List UInt8)
  | event (e : Unsol)
  deriving DecidableEq

/-- What the reader knows. -/
structure MbimReader where
  mbimPRequest : Option (ℕ → UInt8)
  oldReadyState : UInt32
  oldRegisterState : UInt32
  oldPacketServiceState : UInt32
  oldActivationState : UInt32
  mbimSessionID : ℤ

/-- `MessageHeader.TransactionId` -/
def transactionIdAt : ℕ := 8

/-- `DeviceServiceId` -/
def deviceServiceIdAt : ℕ := 20

/-- `CID` -/
def cidAt : ℕ := 36

/-- `InformationBuffer` -/
def informationBufferAt : ℕ := 44

/-- The request that is pending has the transaction id of the message. -/
def AnswersOn (e : Endian) (r : MbimReader) (pResponse : ℕ → UInt8) : Prop :=
  ∃ pRequest ∈ r.mbimPRequest, le32toh e (load32 e pRequest transactionIdAt) =
    le32toh e (load32 e pResponse transactionIdAt)

instance (e : Endian) (r : MbimReader) (pResponse : ℕ → UInt8) :
    Decidable (AnswersOn e r pResponse) :=
  inferInstanceAs (Decidable (∃ pRequest ∈ r.mbimPRequest, _))

/-- An event, when a state is not the old one. -/
def eventIf (changed : Prop) [Decidable changed] (e : Unsol) : List ReaderAction :=
  if changed then [.event e] else []

/-- The indications of the basic connect service. -/
def indicateOn (e : Endian) (r : MbimReader) (pIndMsg : ℕ → UInt8) : List ReaderAction :=
  let cid := le32toh e (load32 e pIndMsg cidAt)
  let pInfo := informationBufferAt
  if cid = mbimCidSubscriberReadyStatus then
    eventIf (r.oldReadyState ≠ le32toh e (load32 e pIndMsg pInfo)) .voiceNetworkStateChanged
  else if cid = mbimCidRegisterState then
    eventIf (r.oldRegisterState ≠ le32toh e (load32 e pIndMsg (pInfo + 4)))
      .voiceNetworkStateChanged
  else if cid = mbimCidPacketService then
    eventIf (r.oldPacketServiceState ≠ le32toh e (load32 e pIndMsg (pInfo + 4)))
      .voiceNetworkStateChanged
  else if cid = mbimCidConnect then
    if load32 e pIndMsg pInfo = UInt32.ofInt r.mbimSessionID then
      eventIf (r.oldActivationState ≠ le32toh e (load32 e pIndMsg (pInfo + 4)))
        .dataCallListChanged
    else []
  else []

/-- `mbim_recv_command` -/
def mbimRecvCommandOn (e : Endian) (r : MbimReader) (pResponse : Option (ℕ → UInt8)) :
    List ReaderAction :=
  match pResponse with
  | none => [.signal]
  | some pResponse =>
      if AnswersOn e r pResponse then
        [.response (load pResponse 0 (le32toh e (load32 e pResponse 4)).toNat), .signal]
      else if le32toh e (load32 e pResponse 0) = mbimIndicateStatusMsg then
        if load pResponse deviceServiceIdAt 16 = uuidBasicConnect then indicateOn e r pResponse
        else []
      else []

/-! ### The sender -/

inductive Errno where
  | enodev
  | einval
  | enomem
  deriving DecidableEq

/-- What the sender looks at. -/
structure MbimSender where
  mbimFd : ℤ
  sTidReader : ℕ
  transactionId : UInt32

/-- A request with the first id that is not left to the program gets the id 1, and the counter
starts again behind it. -/
def wrapOn (e : Endian) (transactionId : UInt32) (pRequest : ℕ → UInt8) :
    UInt32 × (ℕ → UInt8) :=
  if load32 e pRequest transactionIdAt = wrapTransactionId then
    (1 + 1, store pRequest transactionIdAt (bytes32 e (htole32 e 1)))
  else (transactionId, pRequest)

/-- `mbim_send_command`: the counter, the request for which the reader looks from now on, and the
bytes that are written. -/
def mbimSendCommandOn (e : Endian) (s : MbimSender) (pRequest : Option (ℕ → UInt8)) :
    Except Errno ((UInt32 × (ℕ → UInt8)) × List UInt8) :=
  if s.mbimFd ≤ 0 then .error .enodev
  else if s.sTidReader = 0 then .error .einval
  else
    match pRequest with
    | none => .error .enomem
    | some pRequest =>
        let r := wrapOn e s.transactionId pRequest
        .ok (r, load r.2 0 (le32toh e (load32 e r.2 4)).toNat)

/-! ### The reader on both hosts -/

theorem answersOn_iff (e : Endian) (r : MbimReader) (pResponse : ℕ → UInt8) :
    AnswersOn e r pResponse ↔ ∃ pRequest ∈ r.mbimPRequest,
      field32 pRequest transactionIdAt = field32 pResponse transactionIdAt := by
  simp only [AnswersOn, le32toh_load32]

/-- The message is an indication for some session, and reports another state than the last. -/
def ReportsActivation (r : MbimReader) (msg : ℕ → UInt8) : Prop :=
  (∀ pRequest ∈ r.mbimPRequest,
      field32 pRequest transactionIdAt ≠ field32 msg transactionIdAt) ∧
    field32 msg 0 = mbimIndicateStatusMsg ∧
    load msg deviceServiceIdAt 16 = uuidBasicConnect ∧
    field32 msg cidAt = mbimCidConnect ∧
    r.oldActivationState ≠ field32 msg (informationBufferAt + 4)

/-- The session and its swap are both the session of the program, or neither is. -/
def SessionSame (r : MbimReader) (msg : ℕ → UInt8) : Prop :=
  field32 msg informationBufferAt = UInt32.ofInt r.mbimSessionID ↔
    bswap32 (field32 msg informationBufferAt) = UInt32.ofInt r.mbimSessionID

/-- A connect indication. -/
theorem indicateOn_connect {e : Endian} {r : MbimReader} {msg : ℕ → UInt8}
    (h : field32 msg cidAt = mbimCidConnect) :
    indicateOn e r msg =
      if load32 e msg informationBufferAt = UInt32.ofInt r.mbimSessionID then
        eventIf (r.oldActivationState ≠ field32 msg (informationBufferAt + 4))
          .dataCallListChanged
      else [] := by
  simp only [indicateOn, le32toh_load32, h]
  rfl

/-- Any other indication. -/
theorem indicateOn_agree_of_ne {r : MbimReader} {msg : ℕ → UInt8}
    (h : field32 msg cidAt ≠ mbimCidConnect) :
    indicateOn .little r msg = indicateOn .big r msg := by
  simp only [indicateOn, le32toh_load32, if_neg h]

/-- A list with one member that is there on two conditions. -/
theorem ite_agree_iff {p q : Prop} [Decidable p] [Decidable q] {xs : List ReaderAction} :
    ((if p then xs else []) = if q then xs else []) ↔ (xs ≠ [] → (p ↔ q)) := by
  by_cases hp : p <;> by_cases hq : q <;> by_cases hxs : xs = [] <;> simp [hp, hq, hxs, eq_comm]

theorem indicateOn_agree_iff {r : MbimReader} {msg : ℕ → UInt8}
    (h : field32 msg cidAt = mbimCidConnect) :
    indicateOn .little r msg = indicateOn .big r msg ↔
      (r.oldActivationState ≠ field32 msg (informationBufferAt + 4) → SessionSame r msg) := by
  rw [indicateOn_connect h, indicateOn_connect h, ite_agree_iff, load32_little, load32_big]
  have hevent : eventIf (r.oldActivationState ≠ field32 msg (informationBufferAt + 4))
      .dataCallListChanged ≠ [] ↔
        r.oldActivationState ≠ field32 msg (informationBufferAt + 4) := by
    rw [eventIf]
    simp
  rw [hevent]
  exact Iff.rfl

/-- **The messages that raise the same events on both hosts.** -/
theorem recv_agree_iff (r : MbimReader) (pResponse : Option (ℕ → UInt8)) :
    mbimRecvCommandOn .little r pResponse = mbimRecvCommandOn .big r pResponse ↔
      ∀ msg ∈ pResponse, ReportsActivation r msg → SessionSame r msg := by
  cases pResponse with
  | none => exact iff_of_true rfl fun msg hmsg => absurd hmsg (by simp)
  | some msg =>
      have hanswers : AnswersOn .little r msg ↔ AnswersOn .big r msg := by
        rw [answersOn_iff, answersOn_iff]
      simp only [mbimRecvCommandOn, le32toh_load32, Option.mem_some_iff, forall_eq']
      -- The transaction id is compared as it lies in memory on either side, so both hosts take an
      -- answer for an answer; they part only at the activation state of an indication.
      by_cases ha : AnswersOn .little r msg
      · rw [if_pos ha, if_pos (hanswers.1 ha)]
        obtain ⟨pRequest, hmem, heq⟩ := (answersOn_iff .little r msg).1 ha
        exact iff_of_true rfl fun hr => absurd heq (hr.1 pRequest hmem)
      rw [if_neg ha, if_neg fun hb => ha (hanswers.2 hb)]
      by_cases htype : field32 msg 0 = mbimIndicateStatusMsg
      swap
      · rw [if_neg htype, if_neg htype]
        exact iff_of_true rfl fun hr => absurd hr.2.1 htype
      rw [if_pos htype, if_pos htype]
      by_cases huuid : load msg deviceServiceIdAt 16 = uuidBasicConnect
      swap
      · rw [if_neg huuid, if_neg huuid]
        exact iff_of_true rfl fun hr => absurd hr.2.2.1 huuid
      rw [if_pos huuid, if_pos huuid]
      by_cases hcid : field32 msg cidAt = mbimCidConnect
      · rw [indicateOn_agree_iff hcid]
        have hnone : ∀ pRequest ∈ r.mbimPRequest,
            field32 pRequest transactionIdAt ≠ field32 msg transactionIdAt :=
          fun pRequest hmem heq => ha ((answersOn_iff .little r msg).2 ⟨pRequest, hmem, heq⟩)
        constructor
        · rintro h ⟨-, -, -, -, hstate⟩
          exact h hstate
        · intro h hstate
          exact h ⟨hnone, htype, huuid, hcid, hstate⟩
      · exact iff_of_true (indicateOn_agree_of_ne hcid) fun hr => absurd hr.2.2.2.1 hcid

/-! ### The sender on both hosts -/

/-- **The counter wraps alike on both hosts.** -/
theorem wrapOn_agree_iff (transactionId : UInt32) (pRequest : ℕ → UInt8) :
    wrapOn .little transactionId pRequest = wrapOn .big transactionId pRequest ↔
      field32 pRequest transactionIdAt ≠ wrapTransactionId ∧
        (field32 pRequest transactionIdAt = 1 → transactionId = 2) := by
  have hbig : load32 .big pRequest transactionIdAt = wrapTransactionId ↔
      field32 pRequest transactionIdAt = 1 := by
    rw [load32_big]
    exact @bswap32_inj _ 1
  simp only [wrapOn, bytes32_htole32, load32_little, hbig]
  -- The counter is compared in the order of the host: the little-endian one wraps at
  -- `0x01000000`, the big-endian one at what it reads as that, which is 1.
  by_cases hwrap : field32 pRequest transactionIdAt = wrapTransactionId
  · have hone : field32 pRequest transactionIdAt ≠ 1 := by
      rw [hwrap]
      decide
    rw [if_pos hwrap, if_neg hone]
    refine iff_of_false (fun heq => hone ?_) fun h => h.1 hwrap
    rw [← (Prod.mk.inj heq).2]
    exact field32_store pRequest transactionIdAt 1
  rw [if_neg hwrap]
  by_cases hone : field32 pRequest transactionIdAt = 1
  · have hsame : store pRequest transactionIdAt (le32 1) = pRequest := by
      rw [← hone]
      exact store_field32 pRequest transactionIdAt
    rw [if_pos hone, hsame, Prod.mk.injEq]
    exact ⟨fun h => ⟨hwrap, fun _ => h.1⟩, fun h => ⟨h.2 hone, rfl⟩⟩
  · rw [if_neg hone]
    exact iff_of_true rfl ⟨hwrap, fun h => absurd h hone⟩

/-- The request is sent. -/
def Sends (s : MbimSender) : Prop := 0 < s.mbimFd ∧ s.sTidReader ≠ 0

/-- **The requests that both hosts send alike.** -/
theorem send_agree_iff (s : MbimSender) (pRequest : Option (ℕ → UInt8)) :
    mbimSendCommandOn .little s pRequest = mbimSendCommandOn .big s pRequest ↔
      ∀ req ∈ pRequest, Sends s → field32 req transactionIdAt ≠ wrapTransactionId ∧
        (field32 req transactionIdAt = 1 → s.transactionId = 2) := by
  unfold mbimSendCommandOn
  by_cases hfd : s.mbimFd ≤ 0
  · rw [if_pos hfd, if_pos hfd]
    exact iff_of_true rfl fun _ _ hs => absurd hs.1 (Int.not_lt.2 hfd)
  rw [if_neg hfd, if_neg hfd]
  by_cases htid : s.sTidReader = 0
  · rw [if_pos htid, if_pos htid]
    exact iff_of_true rfl fun _ _ hs => absurd htid hs.2
  rw [if_neg htid, if_neg htid]
  cases pRequest with
  | none => exact iff_of_true rfl fun req hreq => absurd hreq (by simp)
  | some req =>
      have hsends : Sends s := ⟨Int.not_le.1 hfd, htid⟩
      simp only [Option.mem_some_iff, forall_eq', le32toh_load32]
      rw [← wrapOn_agree_iff]
      constructor
      · intro h _
        exact (Prod.mk.inj (Except.ok.inj h)).1
      · intro h
        rw [h hsends]

end QuectelCM

/-
**The transaction ids of MBIM requests.**

A request gets its transaction id when it is composed, from a counter that goes on by one.  The
proxy leaves the ids up to `0xFFFFFF` to the program, so `mbim_send_command` starts the counter
again when it is given the request with the id behind that.  It returns before, when the device is
closed or the reader is gone; and it looks for that id in the field as it stands in memory.

* `QuectelCM.compose` — the functions that compose a request;
* `QuectelCM.MbimCM`, `QuectelCM.MbimCM.step` — the counter, the device and what has been written;
  requests are composed and sent, and the reader opens and closes the device;
* `QuectelCM.MbimCM.InRange` — no request has been written, or is written next, whose id is not left
  to the program;
* `QuectelCM.MbimCM.Counted` — the request with the last id that the counter may give is not
  refused, and the host is little-endian;
* `QuectelCM.MbimCM.request_sent`, `QuectelCM.MbimCM.request_refused` — what a request does;
* `QuectelCM.MbimCM.transactionIds_inRange_iff` — **one is the same as the other, for all steps of
  a run**;
* `QuectelCM.MbimCM.not_inRange` — the device is closed for 16777216 requests.
-/
import OpenwrtPackage.Lib.EventRun
import OpenwrtPackage.QuectelCM.MbimReader

set_option relaxedAutoImplicit false
set_option autoImplicit false

namespace QuectelCM

open Bytes Memory Host

/-! ### Constants -/

def mbimOpenMsg : UInt32 := 1

def mbimCloseMsg : UInt32 := 2

def mbimCommandMsg : UInt32 := 3

def mbimCidProxyControlConfiguration : UInt32 := 1

def mbimCidCmdTypeSet : UInt32 := 1

/-- `sizeof(MBIM_COMMAND_MSG_T)` -/
def mbimCommandMsgSize : UInt32 := 48

/-- `InformationBuffer` of a `MBIM_COMMAND_MSG_T` -/
def commandBufferAt : ℕ := 48

/-- `str2uuid(UUID_BASIC_CONNECT_EXT)` -/
def uuidBasicConnectExt : List UInt8 :=
  [0x3d, 0x01, 0xdc, 0xc5, 0xfe, 0xf5, 0x4d, 0x05, 0x0d, 0x3a, 0xbe, 0xf7, 0x05, 0x8e, 0x9a, 0xaf]

/-- `str2uuid(uuid_ext_qmux)` -/
def uuidExtQmux : List UInt8 :=
  [0xd1, 0xa3, 0x0b, 0xc2, 0xf9, 0x7a, 0x6e, 0x43, 0xbf, 0x65, 0xc7, 0xe2, 0x4f, 0xb0, 0xf0, 0xd3]

/-- `str2uuid(UUID_LIBMBIM_PROXY)` -/
def uuidLibmbimProxy : List UInt8 :=
  [0x83, 0x8c, 0xf7, 0xfb, 0x8d, 0x0d, 0x4d, 0x7f, 0x87, 0x1e, 0xd7, 0x1d, 0xbe, 0xfb, 0xb3, 0x9b]

/-! ### Requests -/

/-- A field is converted and stored. -/
def put32 (e : Endian) (mem : ℕ → UInt8) (p : ℕ) (n : UInt32) : ℕ → UInt8 :=
  store mem p (bytes32 e (htole32 e n))

/-- The fields of a `MBIM_MESSAGE_HEADER`. -/
def putHeader (e : Endian) (mem : ℕ → UInt8) (type length transactionId : UInt32) : ℕ → UInt8 :=
  put32 e (put32 e (put32 e mem 0 type) 4 length) transactionIdAt transactionId

section

variable (e : Endian) (transactionId : UInt32) (mem : Option (ℕ → UInt8))

/-- `compose_open_command`, where `mbim_alloc` has returned `mem`: the request, and the counter. -/
def composeOpenCommand (maxControlTransfer : UInt32) : Option (ℕ → UInt8) × UInt32 :=
  match mem with
  | none => (none, transactionId)
  | some mem =>
      (some (put32 e (putHeader e mem mbimOpenMsg 16 transactionId) 12 maxControlTransfer),
        transactionId + 1)

/-- `compose_close_command` -/
def composeCloseCommand : Option (ℕ → UInt8) × UInt32 :=
  match mem with
  | none => (none, transactionId)
  | some mem => (some (putHeader e mem mbimCloseMsg 12 transactionId), transactionId + 1)

/-- `compose_basic_connect_command` -/
def composeBasicConnectCommand (cid commandType : UInt32) (pInformationBuffer : Option (ℕ → UInt8))
    (informationBufferLength : UInt32) : Option (ℕ → UInt8) × UInt32 :=
  match mem with
  | none => (none, transactionId)
  | some mem =>
      let length := mbimCommandMsgSize + informationBufferLength
      let header := putHeader e mem mbimCommandMsg length transactionId
      let fragment := put32 e (put32 e header 12 1) 16 0
      let service := store fragment deviceServiceIdAt uuidBasicConnect
      let command := put32 e (put32 e service cidAt cid) 40 commandType
      let info := match pInformationBuffer with
        | none => put32 e command 44 0
        | some pInformationBuffer =>
            if informationBufferLength ≠ 0 then
              store (put32 e command 44 informationBufferLength) commandBufferAt
                (load pInformationBuffer 0 informationBufferLength.toNat)
            else put32 e command 44 0
      (some info, transactionId + 1)

/-- `compose_basic_connect_ext_command` -/
def composeBasicConnectExtCommand (cid commandType : UInt32)
    (pInformationBuffer : Option (ℕ → UInt8)) (informationBufferLength : UInt32) :
    Option (ℕ → UInt8) × UInt32 :=
  let r := composeBasicConnectCommand e transactionId mem cid commandType pInformationBuffer
    informationBufferLength
  (r.1.map fun pRequest => store pRequest deviceServiceIdAt uuidBasicConnectExt, r.2)

/-- `compose_qmi_over_mbim_command` -/
def composeQmiOverMbimCommand (cid commandType : UInt32) (pInformationBuffer : Option (ℕ → UInt8))
    (informationBufferLength : UInt32) : Option (ℕ → UInt8) × UInt32 :=
  let r := composeBasicConnectCommand e transactionId mem cid commandType pInformationBuffer
    informationBufferLength
  (r.1.map fun pRequest => store pRequest deviceServiceIdAt uuidExtQmux, r.2)

/-- The `MBIM_LIBQMI_PROXY_CONFIG_T` of `mbim_proxy_configure`, whose fields are not converted. -/
def proxyConfig (dev : List UInt8) : List UInt8 :=
  bytes32 e 12 ++ bytes32 e (UInt32.ofNat (2 * dev.length)) ++ bytes32 e 15 ++
    dev.flatMap fun c => [c, 0]

/-- The request of `mbim_proxy_configure`. -/
def proxyConfigureRequest (dev : List UInt8) : Option (ℕ → UInt8) × UInt32 :=
  let r := composeBasicConnectCommand e transactionId mem mbimCidProxyControlConfiguration
    mbimCidCmdTypeSet none (UInt32.ofNat (12 + 2 * dev.length))
  (r.1.map fun pRequest =>
    store (store pRequest deviceServiceIdAt uuidLibmbimProxy) commandBufferAt (proxyConfig e dev),
    r.2)

end

/-- What is asked for. -/
inductive MbimRequest where
  | openDevice (maxControlTransfer : UInt32)
  | closeDevice
  | basicConnect (cid commandType : UInt32) (pInformationBuffer : Option (ℕ → UInt8))
      (informationBufferLength : UInt32)
  | basicConnectExt (cid commandType : UInt32) (pInformationBuffer : Option (ℕ → UInt8))
      (informationBufferLength : UInt32)
  | qmiOverMbim (cid commandType : UInt32) (pInformationBuffer : Option (ℕ → UInt8))
      (informationBufferLength : UInt32)
  | proxyConfigure (dev : List UInt8)

/-- The request is composed. -/
def compose (e : Endian) (transactionId : UInt32) (mem : Option (ℕ → UInt8)) :
    MbimRequest → Option (ℕ → UInt8) × UInt32
  | .openDevice maxControlTransfer => composeOpenCommand e transactionId mem maxControlTransfer
  | .closeDevice => composeCloseCommand e transactionId mem
  | .basicConnect cid commandType pInformationBuffer informationBufferLength =>
      composeBasicConnectCommand e transactionId mem cid commandType pInformationBuffer
        informationBufferLength
  | .basicConnectExt cid commandType pInformationBuffer informationBufferLength =>
      composeBasicConnectExtCommand e transactionId mem cid commandType pInformationBuffer
        informationBufferLength
  | .qmiOverMbim cid commandType pInformationBuffer informationBufferLength =>
      composeQmiOverMbimCommand e transactionId mem cid commandType pInformationBuffer
        informationBufferLength
  | .proxyConfigure dev => proxyConfigureRequest e transactionId mem dev

/-! ### Steps -/

/-- The connection manager as far as its requests go: what the sender looks at, and the ids of the
requests that have been written. -/
structure MbimCM where
  sender : MbimSender
  written : List UInt32

/-- What can happen. -/
inductive MbimEvent where
  /-- the reader opens or closes the device, begins or ends -/
  | device (mbimFd : ℤ) (sTidReader : ℕ)
  /-- a request is composed in `mem` and sent; the device has `taken` it if it was written -/
  | request (r : MbimRequest) (mem : Option (ℕ → UInt8)) (taken : Bool)

namespace MbimCM

/-- Nothing has been opened. -/
def start : MbimCM := ⟨⟨-1, 0, 1⟩, []⟩

/-- A request is composed and given to `mbim_send_command`. -/
def request (e : Endian) (s : MbimCM) (r : MbimRequest) (mem : Option (ℕ → UInt8))
    (taken : Bool) : MbimCM :=
  let composed := compose e s.sender.transactionId mem r
  let sender := { s.sender with transactionId := composed.2 }
  match mbimSendCommandOn e sender composed.1 with
  | .error _ => { s with sender := sender }
  | .ok ((transactionId, pRequest), _) =>
      { sender := { sender with transactionId := transactionId }
        written := if taken then s.written ++ [field32 pRequest transactionIdAt] else s.written }

def device (s : MbimCM) (mbimFd : ℤ) (sTidReader : ℕ) : MbimCM :=
  { s with sender := { s.sender with mbimFd := mbimFd, sTidReader := sTidReader } }

def step (e : Endian) (s : MbimCM) : MbimEvent → Option MbimCM
  | .device mbimFd sTidReader => some (s.device mbimFd sTidReader)
  | .request r mem taken => some (s.request e r mem taken)

/-- The ids that are left to the program. -/
def ValidId (transactionId : UInt32) : Prop :=
  1 ≤ transactionId.toNat ∧ transactionId.toNat ≤ 0xFFFFFF

/-- Whatever is asked for next, and written to an open device: all requests that have been written
then carry an id that is left to the program. -/
def InRange (e : Endian) (s : MbimCM) : Prop :=
  ∀ (mbimFd : ℤ) (sTidReader : ℕ) (r : MbimRequest) (mem : ℕ → UInt8), 0 < mbimFd →
    sTidReader ≠ 0 →
      ∀ transactionId ∈ ((s.device mbimFd sTidReader).request e r (some mem) true).written,
        ValidId transactionId

/-- The last id that the counter may give to a request. -/
def lastId : Endian → UInt32
  | .little => wrapTransactionId
  | .big => wrapTransactionId - 1

/-- A request that gets the last id is sent, on a little-endian host. -/
def Counted (e : Endian) (s : MbimCM) : MbimEvent → Prop
  | .request _ (some _) _ =>
      s.sender.transactionId = lastId e → e = .little ∧ Sends s.sender
  | _ => True

/-- The id that a request with the id `transactionId` is sent with. -/
def carriedId : Endian → UInt32 → UInt32
  | .little, transactionId => if transactionId = wrapTransactionId then 1 else transactionId
  | .big, transactionId => transactionId

/-! ### What a request does -/

theorem put32_eq (e : Endian) (mem : ℕ → UInt8) (p : ℕ) (n : UInt32) :
    put32 e mem p n = store mem p (le32 n) := by
  rw [put32, bytes32_htole32]

theorem field32_putHeader (e : Endian) (mem : ℕ → UInt8) (type length transactionId : UInt32) :
    field32 (putHeader e mem type length transactionId) transactionIdAt = transactionId := by
  rw [putHeader, put32_eq, field32_store]

/-- No memory: no request, and the counter stays. -/
theorem compose_none (e : Endian) (transactionId : UInt32) (r : MbimRequest) :
    compose e transactionId none r = (none, transactionId) := by
  cases r <;> rfl

theorem composeBasicConnectCommand_some (e : Endian) (transactionId : UInt32) (mem : ℕ → UInt8)
    (cid commandType : UInt32) (info : Option (ℕ → UInt8)) (length : UInt32) :
    ∃ pRequest, composeBasicConnectCommand e transactionId (some mem) cid commandType info length =
        (some pRequest, transactionId + 1) ∧
      field32 pRequest transactionIdAt = transactionId := by
  have hcommand : ∀ bs : List UInt8, field32 (store (put32 e (put32 e (store (put32 e (put32 e
      (putHeader e mem mbimCommandMsg (mbimCommandMsgSize + length) transactionId) 12 1) 16 0)
      deviceServiceIdAt uuidBasicConnect) cidAt cid) 40 commandType) 44 bs) transactionIdAt =
        transactionId := by
    intro bs
    simp only [put32_eq]
    rw [field32_store_of_le _ _ (by decide), field32_store_of_le _ _ (by decide),
      field32_store_of_le _ _ (by decide), field32_store_of_le _ _ (by decide),
      field32_store_of_le _ _ (by decide), field32_store_of_le _ _ (by decide),
      field32_putHeader]
  cases info with
  | none => exact ⟨_, rfl, hcommand _⟩
  | some info =>
      refine ⟨_, rfl, ?_⟩
      dsimp only
      split
      · rw [field32_store_of_le _ _ (by decide)]
        exact hcommand _
      · exact hcommand _

/-- A request is composed with the id of the counter, and the counter goes on. -/
theorem compose_some (e : Endian) (transactionId : UInt32) (mem : ℕ → UInt8) (r : MbimRequest) :
    ∃ pRequest, compose e transactionId (some mem) r = (some pRequest, transactionId + 1) ∧
      field32 pRequest transactionIdAt = transactionId := by
  cases r with
  | openDevice maxControlTransfer =>
      refine ⟨_, rfl, ?_⟩
      rw [put32_eq, field32_store_of_le _ _ (by decide), field32_putHeader]
  | closeDevice => exact ⟨_, rfl, field32_putHeader ..⟩
  | basicConnect cid commandType info length =>
      exact composeBasicConnectCommand_some e transactionId mem cid commandType info length
  | basicConnectExt cid commandType info length =>
      obtain ⟨pRequest, heq, hid⟩ :=
        composeBasicConnectCommand_some e transactionId mem cid commandType info length
      refine ⟨store pRequest deviceServiceIdAt uuidBasicConnectExt, ?_, ?_⟩
      · rw [compose, composeBasicConnectExtCommand, heq]
        rfl
      · rw [field32_store_of_le _ _ (by decide), hid]
  | qmiOverMbim cid commandType info length =>
      obtain ⟨pRequest, heq, hid⟩ :=
        composeBasicConnectCommand_some e transactionId mem cid commandType info length
      refine ⟨store pRequest deviceServiceIdAt uuidExtQmux, ?_, ?_⟩
      · rw [compose, composeQmiOverMbimCommand, heq]
        rfl
      · rw [field32_store_of_le _ _ (by decide), hid]
  | proxyConfigure dev =>
      obtain ⟨pRequest, heq, hid⟩ := composeBasicConnectCommand_some e transactionId mem
        mbimCidProxyControlConfiguration mbimCidCmdTypeSet none
        (UInt32.ofNat (12 + 2 * dev.length))
      refine ⟨store (store pRequest deviceServiceIdAt uuidLibmbimProxy) commandBufferAt
        (proxyConfig e dev), ?_, ?_⟩
      · rw [compose, proxyConfigureRequest, heq]
        rfl
      · rw [field32_store_of_le _ _ (by decide), field32_store_of_le _ _ (by decide), hid]

/-- The id that the request is sent with, and the counter behind it. -/
theorem wrapOn_eq (e : Endian) {transactionId : UInt32} {pRequest : ℕ → UInt8}
    (h : field32 pRequest transactionIdAt = transactionId) :
    (wrapOn e (transactionId + 1) pRequest).1 = carriedId e transactionId + 1 ∧
      field32 (wrapOn e (transactionId + 1) pRequest).2 transactionIdAt =
        carriedId e transactionId := by
  unfold wrapOn
  rw [bytes32_htole32]
  cases e with
  | little =>
      rw [load32_little, h, carriedId]
      split
      · exact ⟨rfl, field32_store ..⟩
      · exact ⟨rfl, h⟩
  | big =>
      have hone : bswap32 transactionId = wrapTransactionId ↔ transactionId = 1 :=
        @bswap32_inj transactionId 1
      rw [load32_big, h, carriedId]
      split
      · next hwrap =>
          rw [hone.1 hwrap]
          exact ⟨rfl, field32_store ..⟩
      · exact ⟨rfl, h⟩

section

variable {e : Endian} {s s' : MbimCM}

/-- The device is closed, or the reader is gone: the id is lost. -/
theorem request_refused (h : ¬ Sends s.sender) (r : MbimRequest) (mem : ℕ → UInt8) (taken : Bool) :
    s.request e r (some mem) taken =
      { s with sender := { s.sender with transactionId := s.sender.transactionId + 1 } } := by
  obtain ⟨pRequest, hcompose, -⟩ := compose_some e s.sender.transactionId mem r
  unfold request mbimSendCommandOn
  rw [hcompose]
  dsimp only
  by_cases hfd : s.sender.mbimFd ≤ 0
  · rw [if_pos hfd]
  · have htid : s.sender.sTidReader = 0 := by
      by_contra hreader
      exact h ⟨Int.not_le.1 hfd, hreader⟩
    rw [if_neg hfd, if_pos htid]

/-- A request that is sent. -/
theorem request_sent (h : Sends s.sender) (r : MbimRequest) (mem : ℕ → UInt8) (taken : Bool) :
    s.request e r (some mem) taken =
      { sender := { s.sender with transactionId := carriedId e s.sender.transactionId + 1 }
        written := if taken then s.written ++ [carriedId e s.sender.transactionId]
          else s.written } := by
  obtain ⟨pRequest, hcompose, hid⟩ := compose_some e s.sender.transactionId mem r
  obtain ⟨hcounter, hcarried⟩ := wrapOn_eq e hid
  unfold request mbimSendCommandOn
  rw [hcompose]
  dsimp only
  rw [if_neg (Int.not_le.2 h.1), if_neg h.2]
  dsimp only
  rw [hcounter, hcarried]

/-- Without a request `mbim_send_command` fails, open or not. -/
theorem mbimSendCommandOn_none (e : Endian) (s : MbimSender) :
    ∃ err, mbimSendCommandOn e s none = .error err := by
  unfold mbimSendCommandOn
  split
  · exact ⟨_, rfl⟩
  · split
    · exact ⟨_, rfl⟩
    · exact ⟨_, rfl⟩

theorem request_none (s : MbimCM) (r : MbimRequest) (taken : Bool) :
    s.request e r none taken = s := by
  obtain ⟨err, herr⟩ := mbimSendCommandOn_none e
    { s.sender with transactionId := s.sender.transactionId }
  unfold request
  rw [compose_none]
  dsimp only
  rw [herr]

/-! ### Ids in range -/

/-- The id of a request that is sent is left to the program while the counter is in its range. -/
theorem validId_carriedId_iff (transactionId : UInt32) :
    ValidId (carriedId e transactionId) ↔
      1 ≤ transactionId.toNat ∧ transactionId.toNat ≤ (lastId e).toNat := by
  have hwrap : wrapTransactionId.toNat = 0x1000000 := rfl
  have hlast : (wrapTransactionId - 1).toNat = 0xFFFFFF := rfl
  cases e with
  | little =>
      rw [carriedId, lastId, hwrap]
      split
      · next heq =>
          rw [heq, hwrap]
          exact iff_of_true ⟨by decide, by decide⟩ ⟨by omega, by omega⟩
      · next hne =>
          have hval : transactionId.toNat ≠ 0x1000000 := fun h => hne (UInt32.toNat_inj.1 h)
          rw [ValidId]
          omega
  | big => rw [carriedId, lastId, hlast, ValidId]

/-- What has been written and the counter decide. -/
theorem inRange_iff :
    InRange e s ↔ (∀ transactionId ∈ s.written, ValidId transactionId) ∧
      1 ≤ s.sender.transactionId.toNat ∧ s.sender.transactionId.toNat ≤ (lastId e).toNat := by
  have hnext : ∀ (mbimFd : ℤ) (sTidReader : ℕ) (r : MbimRequest) (mem : ℕ → UInt8), 0 < mbimFd →
      sTidReader ≠ 0 → ((s.device mbimFd sTidReader).request e r (some mem) true).written =
        s.written ++ [carriedId e s.sender.transactionId] := by
    intro mbimFd sTidReader r mem hfd hreader
    have hsends : Sends (s.device mbimFd sTidReader).sender := ⟨hfd, hreader⟩
    rw [request_sent hsends, if_pos rfl]
    rfl
  rw [← validId_carriedId_iff]
  constructor
  · intro h
    have hall := h 1 1 .closeDevice (fun _ => 0) (by decide) (by decide)
    rw [hnext _ _ _ _ (by decide) (by decide)] at hall
    exact ⟨fun t ht => hall t (List.mem_append_left _ ht),
      hall _ (List.mem_append_right _ (List.mem_singleton_self _))⟩
  · rintro ⟨hwritten, hcarried⟩ mbimFd sTidReader r mem hfd hreader t ht
    rw [hnext _ _ _ _ hfd hreader] at ht
    rcases List.mem_append.1 ht with hold | hnew
    · exact hwritten t hold
    · rw [List.mem_singleton.1 hnew]
      exact hcarried

theorem inRange_start : InRange e start :=
  inRange_iff.2 ⟨fun _ h => absurd h List.not_mem_nil, by cases e <;> decide⟩

/-- The counter goes on without a wrap as long as it is in its range. -/
theorem toNat_succ {transactionId : UInt32} (h : transactionId.toNat ≤ (lastId e).toNat) :
    (transactionId + 1).toNat = transactionId.toNat + 1 := by
  have hlast : (lastId e).toNat ≤ 0x1000000 := by cases e <;> decide
  rw [UInt32.toNat_add, UInt32.toNat_one]
  omega

/-- The id of the counter is the id that is sent, unless the counter starts again. -/
theorem carriedId_of_not {transactionId : UInt32}
    (h : ¬ (e = .little ∧ transactionId = lastId e)) :
    carriedId e transactionId = transactionId := by
  cases e with
  | little => exact if_neg fun heq => h ⟨rfl, heq⟩
  | big => rfl

/-- Unless the counter starts again, it goes on by one, sent or not. -/
theorem request_transactionId
    (h : ¬ (e = .little ∧ s.sender.transactionId = lastId e ∧ Sends s.sender)) (r : MbimRequest)
    (mem : ℕ → UInt8) (taken : Bool) :
    (s.request e r (some mem) taken).sender.transactionId = s.sender.transactionId + 1 := by
  by_cases hsends : Sends s.sender
  · rw [request_sent hsends]
    dsimp only
    rw [carriedId_of_not fun hlast => h ⟨hlast.1, hlast.2, hsends⟩]
  · rw [request_refused hsends]

/-- A request writes its id, or nothing. -/
theorem mem_written_request {r : MbimRequest} {mem : ℕ → UInt8} {taken : Bool} {t : UInt32}
    (ht : t ∈ (s.request e r (some mem) taken).written) :
    t ∈ s.written ∨ t = carriedId e s.sender.transactionId := by
  by_cases hsends : Sends s.sender
  · rw [request_sent hsends] at ht
    cases taken with
    | false => exact .inl ht
    | true =>
        rcases List.mem_append.1 ht with hold | hnew
        · exact .inl hold
        · exact .inr (List.mem_singleton.1 hnew)
  · rw [request_refused hsends] at ht
    exact .inl ht

/-- **A step that is counted right keeps the ids in range.** -/
theorem inRange_step {ev : MbimEvent} (h : InRange e s) (hok : Counted e s ev)
    (hstep : s.step e ev = some s') : InRange e s' := by
  cases ev with
  | device mbimFd sTidReader =>
      obtain rfl := Option.some.inj hstep
      exact inRange_iff.2 (inRange_iff.1 h)
  | request r mem taken =>
      obtain rfl := Option.some.inj hstep
      cases mem with
      | none =>
          rw [request_none]
          exact h
      | some mem =>
          obtain ⟨hwritten, hlow, hhigh⟩ := inRange_iff.1 h
          refine inRange_iff.2 ⟨fun t ht => ?_, ?_⟩
          · rcases mem_written_request ht with hold | rfl
            · exact hwritten t hold
            · exact (validId_carriedId_iff _).2 ⟨hlow, hhigh⟩
          · by_cases hlast : s.sender.transactionId = lastId e
            · -- the counter starts again
              obtain ⟨rfl, hsends⟩ := hok hlast
              rw [request_sent hsends, hlast]
              dsimp only
              exact ⟨by decide, by decide⟩
            · rw [request_transactionId fun hwrap => hlast hwrap.2.1, toNat_succ hhigh]
              have hne : s.sender.transactionId.toNat ≠ (lastId e).toNat := fun heq =>
                hlast (UInt32.toNat_inj.1 heq)
              omega

/-- **Any other step leaves a counter that is out of range.** -/
theorem not_inRange_step {ev : MbimEvent} (h : InRange e s) (hbad : ¬ Counted e s ev)
    (hstep : s.step e ev = some s') : ¬ InRange e s' := by
  cases ev with
  | device mbimFd sTidReader => exact absurd trivial hbad
  | request r mem taken =>
      obtain rfl := Option.some.inj hstep
      cases mem with
      | none => exact absurd trivial hbad
      | some mem =>
          intro hnext
          obtain ⟨hlast, hno⟩ := Classical.not_imp.1 hbad
          obtain ⟨-, -, hhigh⟩ := inRange_iff.1 h
          obtain ⟨-, -, hover⟩ := inRange_iff.1 hnext
          rw [request_transactionId fun hwrap => hno ⟨hwrap.1, hwrap.2.2⟩, toNat_succ hhigh,
            hlast] at hover
          omega

end

/-! ### Whole runs -/

/-- **All requests that are written in a run, or next, carry ids that are left to the program
exactly when no request with the last id is refused, on a little-endian host; on a big-endian host,
exactly when there is no such request.** -/
theorem transactionIds_inRange_iff (e : Endian) (evs : List MbimEvent) :
    (∀ s ∈ EventRun.states (step e) start evs, InRange e s) ↔
      ∀ m ∈ EventRun.moves (step e) start evs, Counted e m.1 m.2 :=
  EventRun.holds_iff (InRange e) (InRange e) (fun _ _ => True) (Counted e) (fun _ h => h)
    (fun _ _ _ h _ hok hs => inRange_step h hok hs)
    (fun _ _ _ h _ hbad hs => not_inRange_step h hbad hs)
    inRange_start (fun _ _ => trivial)

/-- While the device is closed, each request uses an id up. -/
theorem mem_states_refused {s : MbimCM} (h : ¬ Sends s.sender) (n : ℕ) {evs : List MbimEvent}
    {t : MbimCM} (ht : t ∈ EventRun.states (step .little)
      { s with sender :=
        { s.sender with transactionId := s.sender.transactionId + UInt32.ofNat n } } evs) :
    t ∈ EventRun.states (step .little) s
      (List.replicate n (.request .closeDevice (some fun _ => 0) false) ++ evs) := by
  induction n generalizing s with
  | zero =>
      have hzero : s.sender.transactionId + UInt32.ofNat 0 = s.sender.transactionId :=
        UInt32.add_zero _
      rw [hzero] at ht
      exact ht
  | succ n ih =>
      rw [List.replicate_succ, List.cons_append, EventRun.states_cons_some rfl]
      refine List.mem_cons_of_mem _ ?_
      rw [request_refused h]
      refine @ih { s with sender := { s.sender with
        transactionId := s.sender.transactionId + 1 } } h ?_
      have hsum : s.sender.transactionId + 1 + UInt32.ofNat n =
          s.sender.transactionId + UInt32.ofNat (n + 1) := by
        rw [UInt32.add_assoc, UInt32.ofNat_add, UInt32.add_comm 1]
        rfl
      dsimp only
      rw [hsum]
      exact ht

/-- 16777216 requests are refused; the next one is sent. -/
theorem not_inRange : ¬ ∀ (e : Endian) (evs : List MbimEvent),
    ∀ s ∈ EventRun.states (step e) start evs, ∀ t ∈ s.written, ValidId t := by
  intro hall
  let refused : MbimCM := ⟨⟨-1, 0, 1 + UInt32.ofNat 0x1000000⟩, []⟩
  let sent : MbimCM := (refused.device 3 1).request .little .closeDevice (some fun _ => 0) true
  have hsent : sent ∈ EventRun.states (step .little) refused
      [.device 3 1, .request .closeDevice (some fun _ => 0) true] :=
    List.mem_cons_of_mem _ (List.mem_cons_of_mem _ List.mem_cons_self)
  have hclosed : ¬ Sends start.sender := fun h => absurd h.1 (by decide)
  have hrun := mem_states_refused hclosed 0x1000000 hsent
  have hwritten : sent.written = [0x1000001] := by
    have hsends : Sends (refused.device 3 1).sender := ⟨by decide, by decide⟩
    rw [show sent = _ from request_sent hsends .closeDevice (fun _ => 0) true]
    rfl
  have hvalid := hall .little _ sent hrun 0x1000001 (by rw [hwritten]; exact List.mem_cons_self)
  exact absurd hvalid.2 (by decide)

end MbimCM

end QuectelCM

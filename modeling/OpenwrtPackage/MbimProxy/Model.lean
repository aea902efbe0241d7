/-
**The MBIM proxy: its client slots and its message handlers.**

`quectel-mbim-proxy.c` shares one MBIM device between the clients of a local socket.  A client has a
slot of the array `cm_clients`; the number of the slot goes into the top byte of the transaction id
of every request, and the answer is given to the slot whose number it carries.

This module is a translation of the handlers.  A handler takes the slots and returns the new slots
and what it writes and closes, in order.  A message is read whole, and a descriptor that is written
takes the whole message.

* `MbimProxy.CmClients` — the array `cm_clients`;
* `MbimProxy.handleClientConnect`, `MbimProxy.handleClientDisconnect` — a client comes and goes;
* `MbimProxy.handleClientRequest`, `MbimProxy.handleDeviceResponse` — a message from either side;
* `MbimProxy.slotOf_pack`, `MbimProxy.pack_and_tidMask` — **a transaction id of 24 bits and a slot
  number are read back from what they are packed into**.
-/
import Mathlib.Algebra.Group.Nat.Defs
import Mathlib.Data.Int.Notation
import Mathlib.Data.List.FinRange
import Mathlib.Logic.Function.Basic

set_option relaxedAutoImplicit false
set_option autoImplicit false

namespace MbimProxy

/-! ### The data -/

/-- `CM_MAX_CLIENT`. -/
def cmMaxClient : ℕ := 32

def tidMask : UInt32 := 0xFFFFFF

def tidShift : UInt32 := 24

def mbimOpenMsg : UInt32 := 1

def mbimCloseMsg : UInt32 := 2

/-- `sizeof(MBIM_OPEN_DONE_T)`. -/
def mbimOpenDoneSize : UInt32 := 16

/-- `MBIM_MESSAGE_HEADER` and the bytes behind it. -/
structure Message where
  messageType : UInt32
  messageLength : UInt32
  transactionId : UInt32
  body : List UInt8
  deriving DecidableEq

/-- `CM_CLIENT_T`.  The slot is free if its descriptor is not positive. -/
structure CmClient where
  clientFd : ℤ
  clientIdx : ℕ
  deriving DecidableEq

/-- The array `cm_clients`. -/
abbrev CmClients := Fin cmMaxClient → CmClient

/-- What a handler does to the outside. -/
inductive Action where
  /-- `non_block_write(mbim_dev_fd, …)` -/
  | toDev (m : Message)
  /-- `non_block_write(fd, …)` on the socket of a client -/
  | toClient (fd : ℤ) (m : Message)
  /-- `close(fd)` -/
  | close (fd : ℤ)
  deriving DecidableEq

/-- The loop over `cm_clients` that ends with the first slot that passes the test. -/
def firstSlot (test : Fin cmMaxClient → Bool) : Option (Fin cmMaxClient) :=
  (List.finRange cmMaxClient).find? test

/-! ### Clients -/

/-- `safe_close`: the descriptor afterwards, and the close if there is one. -/
def safeClose (fd : ℤ) : ℤ × List Action := if 0 < fd then (-1, [.close fd]) else (fd, [])

/-- `handle_client_connect`, where `accept` has returned `client_fd`. -/
def handleClientConnect (cmClients : CmClients) (clientFd : ℤ) : CmClients × List Action :=
  match firstSlot fun i => (cmClients i).clientFd ≤ 0 with
  | some i => (Function.update cmClients i ⟨clientFd, i + 1⟩, [])
  | none => (cmClients, [.close clientFd])

/-- `handle_client_disconnect`. -/
def handleClientDisconnect (cmClients : CmClients) (clientFd : ℤ) : CmClients × List Action :=
  match firstSlot fun i => (cmClients i).clientFd = clientFd with
  | some i =>
      let r := safeClose (cmClients i).clientFd
      (Function.update cmClients i { cmClients i with clientFd := r.1 }, r.2)
  | none => (cmClients, [])

/-! ### Messages -/

/-- `MBIM_OPEN_DONE` or `MBIM_CLOSE_DONE` with status 0, as the proxy answers it itself. -/
def openDone (pRequest : Message) : Message :=
  ⟨pRequest.messageType ||| 0x80000000, mbimOpenDoneSize, pRequest.transactionId, [0, 0, 0, 0]⟩

/-- The transaction id the device sees: `TransactionId | (client_idx << TID_SHIFT)`. -/
def pack (transactionId : UInt32) (clientIdx : ℕ) : UInt32 :=
  transactionId ||| (UInt32.ofNat clientIdx <<< tidShift)

/-- The slot number in a transaction id from the device: `TransactionId >> TID_SHIFT`. -/
def slotOf (transactionId : UInt32) : ℕ := (transactionId >>> tidShift).toNat

/-- `handle_client_request`. -/
def handleClientRequest (cmClients : CmClients) (clientFd : ℤ) (pRequest : Message) :
    List Action :=
  match firstSlot fun i => (cmClients i).clientFd = clientFd with
  | none => []
  | some i =>
      if pRequest.messageType = mbimOpenMsg ∨ pRequest.messageType = mbimCloseMsg then
        [.toClient clientFd (openDone pRequest)]
      else
        [.toDev { pRequest with
          transactionId := pack pRequest.transactionId (cmClients i).clientIdx }]

/-- `handle_device_response`. -/
def handleDeviceResponse (cmClients : CmClients) (pResponse : Message) : List Action :=
  if pResponse.transactionId = 0 then
    (List.finRange cmMaxClient).flatMap fun i =>
      if 0 < (cmClients i).clientFd then [.toClient (cmClients i).clientFd pResponse] else []
  else
    match firstSlot fun i =>
        (cmClients i).clientIdx = slotOf pResponse.transactionId ∧ 0 < (cmClients i).clientFd with
    | some i =>
        [.toClient (cmClients i).clientFd
          { pResponse with transactionId := pResponse.transactionId &&& tidMask }]
    | none => []

/-! ### Transaction ids -/

theorem toNat_lt_of_le_tidMask {tid : UInt32} (ht : tid ≤ tidMask) : tid.toNat < 2 ^ 24 := by
  have hle := UInt32.le_iff_toNat_le.1 ht
  simp only [tidMask, UInt32.reduceToNat] at hle
  omega

/-- The slot number stands in the top byte, and the transaction id below it. -/
theorem pack_toNat {tid : UInt32} (ht : tid ≤ tidMask) {idx : ℕ} (hi : idx < 256) :
    (pack tid idx).toNat = idx * 2 ^ 24 + tid.toNat := by
  have htid := toNat_lt_of_le_tidMask ht
  have hidx : idx % 2 ^ 32 = idx := Nat.mod_eq_of_lt (by omega)
  have hshift : (idx <<< 24) % 2 ^ 32 = idx <<< 24 := by
    rw [Nat.shiftLeft_eq]
    exact Nat.mod_eq_of_lt (by omega)
  rw [pack, UInt32.toNat_or, UInt32.toNat_shiftLeft, UInt32.toNat_ofNat', hidx]
  have hred : tidShift.toNat % 32 = 24 := rfl
  rw [hred, hshift, Nat.or_comm, ← Nat.shiftLeft_add_eq_or_of_lt htid, Nat.shiftLeft_eq]

/-- The slot number comes back. -/
theorem slotOf_pack {tid : UInt32} (ht : tid ≤ tidMask) {idx : ℕ} (hi : idx < 256) :
    slotOf (pack tid idx) = idx := by
  have htid := toNat_lt_of_le_tidMask ht
  have hred : tidShift.toNat % 32 = 24 := rfl
  rw [slotOf, UInt32.toNat_shiftRight, hred, pack_toNat ht hi, Nat.shiftRight_eq_div_pow]
  omega

/-- The transaction id of the client comes back. -/
theorem pack_and_tidMask {tid : UInt32} (ht : tid ≤ tidMask) {idx : ℕ} (hi : idx < 256) :
    pack tid idx &&& tidMask = tid := by
  have htid := toNat_lt_of_le_tidMask ht
  have hmask : tidMask.toNat = 2 ^ 24 - 1 := rfl
  apply UInt32.toNat_inj.1
  rw [UInt32.toNat_and, pack_toNat ht hi, hmask, Nat.and_two_pow_sub_one_eq_mod]
  omega

/-- A packed transaction id is not taken for that of an indication. -/
theorem pack_ne_zero {tid : UInt32} (h0 : tid ≠ 0) (ht : tid ≤ tidMask) {idx : ℕ}
    (hi : idx < 256) : pack tid idx ≠ 0 := by
  intro h
  have hback := pack_and_tidMask ht hi
  rw [h] at hback
  exact h0 (hback ▸ UInt32.zero_and)

end MbimProxy

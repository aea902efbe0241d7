/-
**The strings of an MBIM connect request.**

`mbim_populate_connect_data` puts the APN, the user and the password behind the fixed part of a
`MBIM_SET_CONNECT_T`, as wide characters and one behind the other, and writes for each where it is
and how long.  How much room there is has been computed before, and `mbim_set_connect` sends the
structure with that many bytes.  The place of the next string is the size of the last one, not the
sum of all before it.

Main definitions:

* `QuectelCM.mbimPopulateConnectData`, `QuectelCM.mbimSetConnect` — the two functions;
* `QuectelCM.ConnectEncoded` — each field says where its string is, and no two overlap;
* `QuectelCM.connectPieces` — what is written, string by string.

Main results:

* `QuectelCM.connectBuflen_eq` — the room, when it fits an `int`;
* `QuectelCM.connectEncoded_iff` — which structures are encoded, given the room;
* `QuectelCM.connectData_iff` — **a request is encoded when one of the strings is empty** and they
  fit an `int`.
-/
import OpenwrtPackage.Lib.MachineInt
import OpenwrtPackage.QuectelCM.Profile
import OpenwrtPackage.QuectelCM.TransactionIds

set_option relaxedAutoImplicit false
set_option autoImplicit false

namespace QuectelCM

open Bytes Memory Host MachineInt

/-! ### The two functions -/

/-- `mbim_apn`, `mbim_user`, `mbim_passwd`, `mbim_auth` and `mbim_iptype` -/
structure ConnectSettings where
  mbimApn : Option CStr
  mbimUser : Option CStr
  mbimPasswd : Option CStr
  mbimAuth : UInt32
  mbimIptype : UInt32

/-- `sizeof(MBIM_SET_CONNECT_T)`, and where its `DataBuffer` is -/
def setConnectSize : ℕ := 60

/-- `AccessStringOffset`, `UserNameOffset` and `PasswordOffset`; each has its size behind it. -/
def accessStringAt : ℕ := 8

def userNameAt : ℕ := 16

def passwordAt : ℕ := 24

/-- `str2uuid(UUID_MBIMContextTypeInternet)` -/
def uuidMbimContextTypeInternet : List UInt8 :=
  [0x7e, 0x5e, 0x2a, 0x7e, 0x4e, 0x6f, 0x72, 0x72, 0x73, 0x6b, 0x65, 0x6e, 0x7e, 0x5e, 0x2a, 0x7e]

/-- Characters as wide ones: UTF-16LE, where each byte is a character of its own. -/
def wide (s : List UInt8) : List UInt8 := s.flatMap fun c => [c, 0]

/-- `char2wchar`: the memory, and how many bytes have been written -/
def char2wchar (mem : ℕ → UInt8) (src : List UInt8) (dst dstLen : ℕ) : (ℕ → UInt8) × ℕ :=
  let srcLen := if src.length > dstLen / 2 then dstLen / 2 else src.length
  (store mem dst (wide (src.take srcLen)), srcLen * 2)

/-- `_align_32`, on an `int` -/
def align32 (len : ℤ) : ℤ := int (len + if len.tmod 4 ≠ 0 then 4 - len.tmod 4 else 0)

/-- The room for one more string. -/
def addString (buflen : ℤ) (s : Option CStr) : ℤ :=
  align32 (if 0 < strlen s then int (buflen + 2 * strlen s) else buflen)

/-- `buflen` -/
def connectBuflen (c : ConnectSettings) : ℤ :=
  addString (addString (addString 0 c.mbimApn) c.mbimUser) c.mbimPasswd

/-- A string, its size and its place; the state is the memory with `offset`. -/
def putString (w : SizeT) (e : Endian) (buflen : ℤ) (offsetAt : ℕ) (s : Option CStr)
    (align : ℤ → ℤ) (t : (ℕ → UInt8) × ℤ) : (ℕ → UInt8) × ℤ :=
  if 0 < strlen s then
    let mem := put32 e t.1 (offsetAt + 4) (UInt32.ofNat (2 * strlen s))
    let mem := put32 e mem offsetAt (UInt32.ofNat (w.ofInt (t.2 + setConnectSize)))
    let r := char2wchar mem (chars s) (setConnectSize + t.2).toNat (w.ofInt (int (buflen - t.2)))
    (r.1, align (int r.2))
  else t

/-- `mbim_populate_connect_data`, where `malloc` has returned `mem`: `*connect_req_ptr`, and the
result. -/
def mbimPopulateConnectData (w : SizeT) (e : Endian) (c : ConnectSettings)
    (mem : Option (ℕ → UInt8)) : Option (ℕ → UInt8) × ℤ :=
  let buflen := connectBuflen c
  match mem with
  | none => (none, -1)
  | some mem =>
      let mem := fun i => if i < w.ofInt (setConnectSize + buflen) then 0 else mem i
      let t := putString w e buflen accessStringAt c.mbimApn align32 (mem, 0)
      let t := putString w e buflen userNameAt c.mbimUser align32 t
      let t := putString w e buflen passwordAt c.mbimPasswd id t
      (some t.1, buflen)

/-- `mbim_set_connect`, up to the request that is sent; `mem` is what `malloc` returns for the
structure and `pRequest` what it returns for the request. -/
def mbimSetConnect (w : SizeT) (e : Endian) (c : ConnectSettings) (onoff sessionID : UInt32)
    (transactionId : UInt32) (mem pRequest : Option (ℕ → UInt8)) : Option (ℕ → UInt8) :=
  match mbimPopulateConnectData w e c mem with
  | (none, _) => none
  | (some setConnect, buflen) =>
      if buflen < 0 then none
      else
        let setConnect := put32 e setConnect 0 sessionID
        let setConnect := put32 e setConnect 4 (if onoff = 0 then 0 else 1)
        let setConnect := put32 e setConnect 32 0
        let setConnect := put32 e setConnect 36 c.mbimAuth
        let setConnect := put32 e setConnect 40 c.mbimIptype
        let setConnect := store setConnect 44 uuidMbimContextTypeInternet
        (composeBasicConnectCommand e transactionId pRequest mbimCidConnect mbimCidCmdTypeSet
          (some setConnect) (UInt32.ofNat (w.ofInt (setConnectSize + buflen)))).1

/-! ### Encoded -/

/-- A field designates its string, and an empty one has size 0. -/
def Designates (mem : ℕ → UInt8) (limit offsetAt : ℕ) (s : Option CStr) : Prop :=
  let offset := (field32 mem offsetAt).toNat
  let size := (field32 mem (offsetAt + 4)).toNat
  if strlen s = 0 then size = 0
  else load mem offset size = wide (chars s) ∧ offset % 4 = 0 ∧ offset + size ≤ limit

/-- The byte `i` is in what the field designates. -/
def InRange (mem : ℕ → UInt8) (offsetAt i : ℕ) : Prop :=
  (field32 mem offsetAt).toNat ≤ i ∧
    i < (field32 mem offsetAt).toNat + (field32 mem (offsetAt + 4)).toNat

/-- Every field designates its string, and no two of them overlap. -/
structure ConnectEncoded (c : ConnectSettings) (mem : ℕ → UInt8) (limit : ℕ) : Prop where
  apn : Designates mem limit accessStringAt c.mbimApn
  user : Designates mem limit userNameAt c.mbimUser
  passwd : Designates mem limit passwordAt c.mbimPasswd
  apn_user : ∀ i, ¬ (InRange mem accessStringAt i ∧ InRange mem userNameAt i)
  apn_passwd : ∀ i, ¬ (InRange mem accessStringAt i ∧ InRange mem passwordAt i)
  user_passwd : ∀ i, ¬ (InRange mem userNameAt i ∧ InRange mem passwordAt i)

/-! ### The room -/

/-- The next multiple of 4. -/
def padded (n : ℕ) : ℕ := (n + 3) / 4 * 4

/-- The room that the strings need. -/
def roomNeeded (c : ConnectSettings) : ℕ :=
  padded (2 * strlen c.mbimApn) + padded (2 * strlen c.mbimUser) + padded (2 * strlen c.mbimPasswd)

theorem int_lt (n : ℤ) : int n < 2 ^ 31 := by
  rw [int, Int.bmod_def]
  split <;> omega

theorem align32_lt (n : ℤ) : align32 n < 2 ^ 31 := int_lt _

/-- Whatever has been lost, it is a multiple of 4. -/
theorem align32_emod (n : ℤ) : align32 n % 4 = 0 := by
  have htmod := Int.tmod_add_mul_tdiv n 4
  rw [align32, int, Int.bmod_def]
  split <;> split <;> omega

theorem align32_of_lt {n : ℕ} (h : padded n < 2 ^ 31) : align32 n = padded n := by
  rw [padded] at *
  rw [align32, Int.tmod_eq_emod_of_nonneg (Int.natCast_nonneg n)]
  split
  · rw [int_of_lt (by omega) (by omega)]
    omega
  · rw [int_of_lt (by omega) (by omega)]
    omega

theorem addString_of_lt {n : ℕ} {s : Option CStr} (hn : n % 4 = 0)
    (h : n + padded (2 * strlen s) < 2 ^ 31) :
    addString n s = (n + padded (2 * strlen s) : ℕ) := by
  have hpad : padded (n + 2 * strlen s) = n + padded (2 * strlen s) := by
    simp only [padded]
    omega
  have hge : 2 * strlen s ≤ padded (2 * strlen s) := by
    simp only [padded]
    omega
  have hsum : (if 0 < strlen s then int (n + 2 * strlen s) else (n : ℤ)) =
      (n + 2 * strlen s : ℕ) := by
    split
    · rw [int_of_lt (by omega) (by omega)]
      omega
    · omega
  rw [← hpad] at h
  rw [addString, hsum, align32_of_lt h, hpad]

/-- **The room, when it fits an `int`.** -/
theorem connectBuflen_eq {c : ConnectSettings} (h : roomNeeded c < 2 ^ 31) :
    connectBuflen c = roomNeeded c := by
  rw [roomNeeded] at *
  have hpad : ∀ n, padded n % 4 = 0 := fun n => Nat.mul_mod_left _ _
  have happn := hpad (2 * strlen c.mbimApn)
  have huser := hpad (2 * strlen c.mbimUser)
  have h1 := @addString_of_lt 0 c.mbimApn rfl (by omega)
  rw [Nat.zero_add] at h1
  rw [connectBuflen, ← Int.natCast_zero, h1, addString_of_lt happn (by omega),
    addString_of_lt (by omega) (by omega)]

theorem connectBuflen_lt (c : ConnectSettings) : connectBuflen c < 2 ^ 31 := align32_lt _

theorem connectBuflen_emod (c : ConnectSettings) : connectBuflen c % 4 = 0 := align32_emod _

/-! ### The pieces -/

/-- How many characters of a string there is room for. -/
def copied (buflen offset : ℕ) (s : Option CStr) : ℕ := min (strlen s) ((buflen - offset) / 2)

/-- What is written for a string at `offset`. -/
def stringPieces (buflen offsetAt offset : ℕ) (s : Option CStr) : List (ℕ × List UInt8) :=
  if strlen s = 0 then []
  else
    [(offsetAt + 4, le32 (UInt32.ofNat (2 * strlen s))),
      (offsetAt, le32 (UInt32.ofNat (offset + setConnectSize))),
      (setConnectSize + offset, wide ((chars s).take (copied buflen offset s)))]

/-- Where the next string goes: behind this one, as if it were the first. -/
def nextOffset (buflen offset : ℕ) (s : Option CStr) : ℕ :=
  if strlen s = 0 then offset else padded (2 * copied buflen offset s)

/-- The places of the user and of the password. -/
def userOffset (buflen : ℕ) (c : ConnectSettings) : ℕ := nextOffset buflen 0 c.mbimApn

def passwdOffset (buflen : ℕ) (c : ConnectSettings) : ℕ :=
  nextOffset buflen (userOffset buflen c) c.mbimUser

/-- What `mbim_populate_connect_data` writes. -/
def connectPieces (buflen : ℕ) (c : ConnectSettings) : List (ℕ × List UInt8) :=
  stringPieces buflen accessStringAt 0 c.mbimApn ++
    stringPieces buflen userNameAt (userOffset buflen c) c.mbimUser ++
    stringPieces buflen passwordAt (passwdOffset buflen c) c.mbimPasswd

/-- What `mbim_set_connect` writes behind that. -/
def fixedPieces (c : ConnectSettings) (onoff sessionID : UInt32) : List (ℕ × List UInt8) :=
  [(0, le32 sessionID), (4, le32 (if onoff = 0 then 0 else 1)), (32, le32 0),
    (36, le32 c.mbimAuth), (40, le32 c.mbimIptype), (44, uuidMbimContextTypeInternet)]

/-- The structure before anything is written. -/
def cleared (size : ℕ) (mem : ℕ → UInt8) : ℕ → UInt8 := fun i => if i < size then 0 else mem i

section

variable {buflen offset : ℕ} {s : Option CStr} (w : SizeT) (e : Endian)

theorem padded_emod (n : ℕ) : padded n % 4 = 0 := Nat.mul_mod_left _ _

theorem padded_le {n m : ℕ} (h : n ≤ m) (hm : m % 4 = 0) : padded n ≤ m := by
  rw [padded]
  omega

theorem le_padded (n : ℕ) : n ≤ padded n := by
  rw [padded]
  omega

theorem nextOffset_le (hbuflen : buflen % 4 = 0) (hoffset : offset ≤ buflen) :
    nextOffset buflen offset s ≤ buflen := by
  rw [nextOffset]
  split
  · exact hoffset
  · refine padded_le ?_ hbuflen
    rw [copied]
    omega

theorem nextOffset_emod (hoffset : offset % 4 = 0) : nextOffset buflen offset s % 4 = 0 := by
  rw [nextOffset]
  split
  · exact hoffset
  · exact padded_emod _

theorem userOffset_le (hbuflen : buflen % 4 = 0) (c : ConnectSettings) :
    userOffset buflen c ≤ buflen := nextOffset_le hbuflen (Nat.zero_le _)

theorem passwdOffset_le (hbuflen : buflen % 4 = 0) (c : ConnectSettings) :
    passwdOffset buflen c ≤ buflen := nextOffset_le hbuflen (userOffset_le hbuflen c)

theorem userOffset_emod (buflen : ℕ) (c : ConnectSettings) : userOffset buflen c % 4 = 0 :=
  nextOffset_emod rfl

theorem passwdOffset_emod (buflen : ℕ) (c : ConnectSettings) : passwdOffset buflen c % 4 = 0 :=
  nextOffset_emod (userOffset_emod buflen c)

/-- A small number in a `size_t`. -/
theorem sizeT_ofInt {n : ℕ} (h : n < 2 ^ 32) : w.ofInt n = n :=
  w.ofInt_of_lt (Nat.lt_of_lt_of_le h w.modulus_ge)

theorem char2wchar_eq (mem : ℕ → UInt8) (hlt : buflen < 2 ^ 31) (hoffset : offset ≤ buflen) :
    char2wchar mem (chars s) (setConnectSize + (offset : ℤ)).toNat
        (w.ofInt (int (buflen - offset))) =
      (store mem (setConnectSize + offset) (wide ((chars s).take (copied buflen offset s))),
        2 * copied buflen offset s) := by
  have hroom : ((buflen : ℤ) - offset) = (buflen - offset : ℕ) := by omega
  have hplace : (setConnectSize + (offset : ℤ)).toNat = setConnectSize + offset := by omega
  have hcopied : (if (chars s).length > (buflen - offset) / 2 then (buflen - offset) / 2
      else (chars s).length) = copied buflen offset s := by
    rw [copied, strlen]
    split <;> omega
  rw [hroom, int_of_lt (by omega) (by omega), sizeT_ofInt w (by omega), hplace, char2wchar,
    hcopied, Nat.mul_comm]

/-- What one string does to the memory, -/
theorem putString_fst (mem : ℕ → UInt8) (hlt : buflen < 2 ^ 31) (hoffset : offset ≤ buflen)
    (offsetAt : ℕ) (align : ℤ → ℤ) :
    (putString w e buflen offsetAt s align (mem, offset)).1 =
      stores mem (stringPieces buflen offsetAt offset s) := by
  have hplace : w.ofInt ((offset : ℤ) + setConnectSize) = offset + setConnectSize :=
    sizeT_ofInt w (n := offset + setConnectSize) (by simp only [setConnectSize]; omega)
  rw [putString, stringPieces]
  by_cases hzero : strlen s = 0
  · rw [if_neg (by omega), if_pos hzero]
    rfl
  · rw [if_pos (by omega), if_neg hzero]
    dsimp only
    rw [char2wchar_eq w _ hlt hoffset, hplace, MbimCM.put32_eq, MbimCM.put32_eq]
    rfl

/-- and to `offset`. -/
theorem putString_snd (mem : ℕ → UInt8) (hlt : buflen < 2 ^ 31) (hbuflen : buflen % 4 = 0)
    (hoffset : offset ≤ buflen) (offsetAt : ℕ) :
    (putString w e buflen offsetAt s align32 (mem, offset)).2 = nextOffset buflen offset s := by
  rw [putString, nextOffset]
  by_cases hzero : strlen s = 0
  · rw [if_neg (by omega), if_pos hzero]
  · have hle : padded (2 * copied buflen offset s) ≤ buflen :=
      padded_le (by rw [copied]; omega) hbuflen
    have hcopied := le_padded (2 * copied buflen offset s)
    rw [if_pos (by omega), if_neg hzero]
    dsimp only
    rw [char2wchar_eq w _ hlt hoffset]
    dsimp only
    rw [int_of_lt (by omega) (by omega), align32_of_lt (by omega)]

theorem putString_eq (mem : ℕ → UInt8) (hlt : buflen < 2 ^ 31) (hbuflen : buflen % 4 = 0)
    (hoffset : offset ≤ buflen) (offsetAt : ℕ) :
    putString w e buflen offsetAt s align32 (mem, offset) =
      (stores mem (stringPieces buflen offsetAt offset s), ↑(nextOffset buflen offset s)) :=
  Prod.ext (putString_fst w e mem hlt hoffset offsetAt align32)
    (putString_snd w e mem hlt hbuflen hoffset offsetAt)

end

/-- **What the two functions write**, when the room fits an `int`. -/
theorem mbimPopulateConnectData_eq (w : SizeT) (e : Endian) {c : ConnectSettings} {buflen : ℕ}
    (h : connectBuflen c = buflen) (mem : ℕ → UInt8) :
    mbimPopulateConnectData w e c (some mem) =
      (some (stores (cleared (setConnectSize + buflen) mem) (connectPieces buflen c)),
        (buflen : ℤ)) := by
  have hlt : buflen < 2 ^ 31 := by
    have := connectBuflen_lt c
    omega
  have hbuflen : buflen % 4 = 0 := by
    have := connectBuflen_emod c
    omega
  have hsize : w.ofInt (setConnectSize + (buflen : ℤ)) = setConnectSize + buflen :=
    sizeT_ofInt w (n := setConnectSize + buflen) (by simp only [setConnectSize]; omega)
  have happn := @putString_eq buflen 0 c.mbimApn w e (cleared (setConnectSize + buflen) mem) hlt
    hbuflen (Nat.zero_le _) accessStringAt
  have huser := @putString_eq buflen (userOffset buflen c) c.mbimUser w e
    (stores (cleared (setConnectSize + buflen) mem)
      (stringPieces buflen accessStringAt 0 c.mbimApn)) hlt hbuflen (userOffset_le hbuflen c)
    userNameAt
  unfold mbimPopulateConnectData
  dsimp only
  rw [h, hsize]
  change (some (putString w e buflen passwordAt c.mbimPasswd id (putString w e buflen userNameAt
    c.mbimUser align32 (putString w e buflen accessStringAt c.mbimApn align32
      (cleared (setConnectSize + buflen) mem, (0 : ℕ))))).1, (buflen : ℤ)) = _
  rw [happn]
  rw [show nextOffset buflen 0 c.mbimApn = userOffset buflen c from rfl, huser]
  rw [putString_fst w e _ hlt (nextOffset_le hbuflen (userOffset_le hbuflen c)), connectPieces,
    stores_append, stores_append]
  rfl

/-- The structure that is sent. -/
def setConnectMem (buflen : ℕ) (c : ConnectSettings) (onoff sessionID : UInt32)
    (mem : ℕ → UInt8) : ℕ → UInt8 :=
  stores (cleared (setConnectSize + buflen) mem)
    (connectPieces buflen c ++ fixedPieces c onoff sessionID)

/-- The information buffer of a request that has been composed. -/
theorem composeBasicConnectCommand_info {e : Endian} {transactionId cid commandType length : UInt32}
    {pRequest : Option (ℕ → UInt8)} {info request : ℕ → UInt8} (hlength : length ≠ 0)
    (h : (composeBasicConnectCommand e transactionId pRequest cid commandType (some info)
      length).1 = some request) :
    field32 request 44 = length ∧
      load request commandBufferAt length.toNat = load info 0 length.toNat := by
  cases pRequest with
  | none => cases h
  | some command =>
      rw [composeBasicConnectCommand] at h
      dsimp only at h
      rw [if_pos hlength] at h
      cases h
      constructor
      · rw [field32_store_of_le _ _ (by decide), MbimCM.put32_eq, field32_store]
      · have hload := load_store_self (put32 e (put32 e (put32 e (store (put32 e (put32 e
          (putHeader e command mbimCommandMsg (mbimCommandMsgSize + length) transactionId) 12 1) 16
          0) deviceServiceIdAt uuidBasicConnect) cidAt cid) 40 commandType) 44 length)
          commandBufferAt (load info 0 length.toNat)
        rwa [length_load] at hload

/-- **A request that is sent** carries the structure. -/
theorem mbimSetConnect_some {w : SizeT} {e : Endian} {c : ConnectSettings}
    {onoff sessionID transactionId : UInt32} {mem pRequest : Option (ℕ → UInt8)}
    {request : ℕ → UInt8}
    (h : mbimSetConnect w e c onoff sessionID transactionId mem pRequest = some request) :
    ∃ buflen setConnect, connectBuflen c = (buflen : ℕ) ∧
      field32 request 44 = UInt32.ofNat (setConnectSize + buflen) ∧
      load request commandBufferAt (setConnectSize + buflen) =
        load (setConnectMem buflen c onoff sessionID setConnect) 0 (setConnectSize + buflen) := by
  rw [mbimSetConnect] at h
  cases mem with
  | none => cases h
  | some setConnect =>
      by_cases hneg : connectBuflen c < 0
      · unfold mbimPopulateConnectData at h
        dsimp only at h
        rw [if_pos hneg] at h
        cases h
      · obtain ⟨buflen, hbuflen⟩ : ∃ n : ℕ, connectBuflen c = n :=
          Int.eq_ofNat_of_zero_le (by omega)
        have hlt := connectBuflen_lt c
        have hsize : w.ofInt (setConnectSize + (buflen : ℤ)) = setConnectSize + buflen :=
          sizeT_ofInt w (n := setConnectSize + buflen) (by simp only [setConnectSize]; omega)
        have hlength : (UInt32.ofNat (setConnectSize + buflen)).toNat = setConnectSize + buflen :=
          UInt32.toNat_ofNat_of_lt' (by simp only [setConnectSize, UInt32.size]; omega)
        have hnonzero : UInt32.ofNat (setConnectSize + buflen) ≠ 0 := by
          intro hzero
          rw [hzero] at hlength
          simp [setConnectSize] at hlength
          omega
        rw [mbimPopulateConnectData_eq w e hbuflen] at h
        dsimp only at h
        rw [if_neg (by omega), hsize] at h
        simp only [MbimCM.put32_eq] at h
        obtain ⟨hfield, hload⟩ := composeBasicConnectCommand_info hnonzero h
        rw [hlength] at hload
        refine ⟨buflen, setConnect, hbuflen, hfield, hload.trans ?_⟩
        rw [setConnectMem, stores_append]
        rfl

/-! ### The fields of the structure -/

theorem length_wide (s : Option CStr) : (wide (chars s)).length = 2 * strlen s := by
  rw [wide, List.length_flatMap, strlen]
  simp [Nat.mul_comm]

/-- What the field at `offsetAt` says of a string at `offset`. -/
structure Says (mem : ℕ → UInt8) (offsetAt offset : ℕ) (s : Option CStr) : Prop where
  offset : strlen s ≠ 0 → (field32 mem offsetAt).toNat = setConnectSize + offset
  size : (field32 mem (offsetAt + 4)).toNat = 2 * strlen s % 2 ^ 32

theorem field32_of_load {mem : ℕ → UInt8} {p : ℕ} {n : UInt32} (h : load mem p 4 = le32 n) :
    field32 mem p = n := by
  have hload : load mem p 4 = le32 n ++ [] := h.trans (List.append_nil _).symm
  rw [field32, hload, le32At_le32]

theorem field32_cleared (mem : ℕ → UInt8) {size p : ℕ} (h : p + 4 ≤ size) :
    field32 (cleared size mem) p = 0 := by
  refine field32_of_load ?_
  have hzero : load (cleared size mem) p 4 = load (fun _ => 0) p 4 :=
    load_congr fun i _ hi => if_pos (by omega)
  rw [hzero]
  rfl

/-- The string of one field does not touch another field. -/
theorem apart_stringPieces {buflen offsetAt offset p : ℕ} {s : Option CStr}
    (h : offsetAt + 8 ≤ p ∨ p + 8 ≤ offsetAt) (hp : p + 8 ≤ setConnectSize) :
    ∀ v ∈ stringPieces buflen offsetAt offset s, Apart p 8 v := by
  intro v hv
  rw [stringPieces] at hv
  split at hv
  · exact absurd hv List.not_mem_nil
  · simp only [List.mem_cons, List.not_mem_nil, or_false] at hv
    rcases hv with rfl | rfl | rfl
    · simp only [Apart, le32_length]
      omega
    · simp only [Apart, le32_length]
      omega
    · exact Or.inr (by dsimp only; omega)

theorem apart_fixedPieces {c : ConnectSettings} {onoff sessionID : UInt32} {p n : ℕ}
    (h : 8 ≤ p ∧ p + n ≤ 32 ∨ setConnectSize ≤ p) :
    ∀ v ∈ fixedPieces c onoff sessionID, Apart p n v := by
  intro v hv
  simp only [setConnectSize] at h
  simp only [fixedPieces, List.mem_cons, List.not_mem_nil, or_false] at hv
  rcases hv with rfl | rfl | rfl | rfl | rfl | rfl <;>
    simp only [Apart, le32_length, uuidMbimContextTypeInternet, List.length_cons,
      List.length_nil] <;> omega

section

variable {buflen offsetAt offset size : ℕ} {s : Option CStr} {pre post : List (ℕ × List UInt8)}

/-- One string among others. -/
theorem says_of_pieces (hlt : offset + setConnectSize < 2 ^ 32)
    (hpre : ∀ v ∈ pre, Apart offsetAt 8 v) (hpost : ∀ v ∈ post, Apart offsetAt 8 v)
    (hat : offsetAt + 8 ≤ setConnectSize) (hsize : setConnectSize ≤ size) (mem : ℕ → UInt8) :
    Says (stores (cleared size mem) (pre ++ (stringPieces buflen offsetAt offset s ++ post)))
      offsetAt offset s := by
  have hsmall : ∀ {v : ℕ × List UInt8} {p : ℕ}, Apart offsetAt 8 v → offsetAt ≤ p →
      p + 4 ≤ offsetAt + 8 → Apart p 4 v := by
    intro v p happart hle hend
    rw [Apart] at *
    omega
  rw [stringPieces]
  by_cases hzero : strlen s = 0
  · rw [if_pos hzero, List.nil_append]
    refine ⟨fun h => absurd hzero h, ?_⟩
    have happart : ∀ v ∈ pre ++ post, Apart (offsetAt + 4) 4 v := by
      intro v hv
      rcases List.mem_append.1 hv with hv | hv
      · exact hsmall (hpre v hv) (by omega) (by omega)
      · exact hsmall (hpost v hv) (by omega) (by omega)
    rw [field32, load_stores_of_apart happart, ← field32, field32_cleared mem (by omega), hzero]
    rfl
  · rw [if_neg hzero]
    have hdata : ∀ p, p + 4 ≤ setConnectSize → Apart p 4
        (setConnectSize + offset, wide ((chars s).take (copied buflen offset s))) :=
      fun p hp => Or.inr (by dsimp only; omega)
    refine ⟨fun _ => ?_, ?_⟩
    · have hload := @load_stores_self UInt8
        (offsetAt, le32 (UInt32.ofNat (offset + setConnectSize)))
        ((setConnectSize + offset, wide ((chars s).take (copied buflen offset s))) :: post)
        (List.forall_mem_cons.2 ⟨hdata _ (by omega),
          fun v hv => hsmall (hpost v hv) (by omega) (by omega)⟩) (cleared size mem)
        (pre ++ [(offsetAt + 4, le32 (UInt32.ofNat (2 * strlen s)))])
      rw [List.append_assoc] at hload
      have hfield := field32_of_load hload
      exact (congrArg UInt32.toNat hfield).trans
        ((UInt32.toNat_ofNat_of_lt' hlt).trans (Nat.add_comm _ _))
    · have hload := @load_stores_self UInt8
        (offsetAt + 4, le32 (UInt32.ofNat (2 * strlen s)))
        ((offsetAt, le32 (UInt32.ofNat (offset + setConnectSize))) ::
          (setConnectSize + offset, wide ((chars s).take (copied buflen offset s))) :: post)
        (List.forall_mem_cons.2 ⟨Or.inl (Nat.le_refl _), List.forall_mem_cons.2
          ⟨hdata _ (by omega), fun v hv => hsmall (hpost v hv) (by omega) (by omega)⟩⟩)
        (cleared size mem) pre
      have hfield := field32_of_load hload
      exact (congrArg UInt32.toNat hfield).trans (UInt32.toNat_ofNat' ..)

/-- The string is there when it has been copied to its end and nothing is written over it. -/
theorem data_of_pieces (hzero : strlen s ≠ 0) (hroom : offset + 2 * strlen s ≤ buflen)
    (hpost : ∀ v ∈ post, Apart (setConnectSize + offset) (2 * strlen s) v) (mem : ℕ → UInt8) :
    load (stores mem (pre ++ (stringPieces buflen offsetAt offset s ++ post)))
      (setConnectSize + offset) (2 * strlen s) = wide (chars s) := by
  have hcopied : (chars s).take (copied buflen offset s) = chars s := by
    refine List.take_of_length_le ?_
    rw [copied, strlen] at *
    omega
  have hlen := length_wide s
  rw [stringPieces, if_neg hzero, hcopied]
  have hload := @load_stores_self UInt8 (setConnectSize + offset, wide (chars s)) post
    (by rw [hlen]; exact hpost) mem
    (pre ++ [(offsetAt + 4, le32 (UInt32.ofNat (2 * strlen s))),
      (offsetAt, le32 (UInt32.ofNat (offset + setConnectSize)))])
  dsimp only at hload
  rw [hlen, List.append_assoc] at hload
  exact hload

end

/-- A string further behind does not touch this one. -/
theorem apart_behind {buflen offsetAt offset p n : ℕ} {s : Option CStr}
    (hat : offsetAt + 8 ≤ setConnectSize) (hp : setConnectSize ≤ p)
    (h : strlen s ≠ 0 → p + n ≤ setConnectSize + offset) :
    ∀ v ∈ stringPieces buflen offsetAt offset s, Apart p n v := by
  intro v hv
  rw [stringPieces] at hv
  split at hv
  · exact absurd hv List.not_mem_nil
  · rename_i hzero
    simp only [List.mem_cons, List.not_mem_nil, or_false] at hv
    rcases hv with rfl | rfl | rfl
    · simp only [Apart, le32_length]
      omega
    · simp only [Apart, le32_length]
      omega
    · exact Or.inr (h hzero)

section

variable {mem : ℕ → UInt8} {buflen offsetAt offset : ℕ} {s : Option CStr}

/-- A string that is designated has room. -/
theorem Says.room (h : Says mem offsetAt offset s)
    (hdesignates : Designates mem (setConnectSize + buflen) offsetAt s) (hzero : strlen s ≠ 0) :
    2 * strlen s < 2 ^ 32 ∧ offset + 2 * strlen s ≤ buflen := by
  rw [Designates] at hdesignates
  rw [if_neg hzero, h.offset hzero] at hdesignates
  obtain ⟨hload, -, hend⟩ := hdesignates
  have hlen := congrArg List.length hload
  rw [length_load, length_wide] at hlen
  have hlt := (field32 mem (offsetAt + 4)).toNat_lt
  omega

/-- And one that has been written is designated. -/
theorem Says.designates (h : Says mem offsetAt offset s) (haligned : offset % 4 = 0)
    (hdata : strlen s ≠ 0 → 2 * strlen s < 2 ^ 32 ∧ offset + 2 * strlen s ≤ buflen ∧
      load mem (setConnectSize + offset) (2 * strlen s) = wide (chars s)) :
    Designates mem (setConnectSize + buflen) offsetAt s := by
  rw [Designates, h.size]
  by_cases hzero : strlen s = 0
  · rw [if_pos hzero, hzero]
    rfl
  · obtain ⟨hlt, hroom, hload⟩ := hdata hzero
    rw [if_neg hzero, h.offset hzero, Nat.mod_eq_of_lt hlt]
    refine ⟨hload, ?_, by omega⟩
    simp only [setConnectSize]
    omega

theorem Says.inRange_iff (h : Says mem offsetAt offset s) (hlt : 2 * strlen s < 2 ^ 32) (i : ℕ) :
    InRange mem offsetAt i ↔ strlen s ≠ 0 ∧ setConnectSize + offset ≤ i ∧
      i < setConnectSize + offset + 2 * strlen s := by
  rw [InRange, h.size, Nat.mod_eq_of_lt hlt]
  by_cases hzero : strlen s = 0
  · simp only [hzero]
    omega
  · rw [h.offset hzero]
    omega

end

/-! ### The three strings -/

section

variable {buflen : ℕ} (c : ConnectSettings) (onoff sessionID : UInt32) (mem : ℕ → UInt8)

/-- The pieces, string by string. -/
theorem setConnectMem_eq : setConnectMem buflen c onoff sessionID mem =
    stores (cleared (setConnectSize + buflen) mem)
      (stringPieces buflen accessStringAt 0 c.mbimApn ++
        (stringPieces buflen userNameAt (userOffset buflen c) c.mbimUser ++
          (stringPieces buflen passwordAt (passwdOffset buflen c) c.mbimPasswd ++
            fixedPieces c onoff sessionID))) := by
  rw [setConnectMem, connectPieces, List.append_assoc, List.append_assoc]

theorem says_apn : Says (setConnectMem buflen c onoff sessionID mem) accessStringAt 0
    c.mbimApn := by
  rw [setConnectMem_eq]
  exact @says_of_pieces buflen accessStringAt 0 (setConnectSize + buflen) c.mbimApn []
    _ (by decide) (fun v hv => absurd hv List.not_mem_nil)
    (List.forall_mem_append.2 ⟨apart_stringPieces (Or.inr (by decide)) (by decide),
      List.forall_mem_append.2 ⟨apart_stringPieces (Or.inr (by decide)) (by decide),
        apart_fixedPieces (Or.inl (by decide))⟩⟩) (by decide) (Nat.le_add_right _ _) mem

theorem says_user (hlt : buflen < 2 ^ 31) (hbuflen : buflen % 4 = 0) :
    Says (setConnectMem buflen c onoff sessionID mem) userNameAt (userOffset buflen c)
      c.mbimUser := by
  have hle := userOffset_le hbuflen c
  rw [setConnectMem_eq]
  exact says_of_pieces (by simp only [setConnectSize]; omega)
    (apart_stringPieces (Or.inl (by decide)) (by decide))
    (List.forall_mem_append.2 ⟨apart_stringPieces (Or.inr (by decide)) (by decide),
      apart_fixedPieces (Or.inl (by decide))⟩) (by decide) (Nat.le_add_right _ _) mem

theorem says_passwd (hlt : buflen < 2 ^ 31) (hbuflen : buflen % 4 = 0) :
    Says (setConnectMem buflen c onoff sessionID mem) passwordAt (passwdOffset buflen c)
      c.mbimPasswd := by
  have hle := passwdOffset_le hbuflen c
  rw [setConnectMem_eq, ← List.append_assoc]
  exact says_of_pieces (by simp only [setConnectSize]; omega)
    (List.forall_mem_append.2 ⟨apart_stringPieces (Or.inl (by decide)) (by decide),
      apart_stringPieces (Or.inl (by decide)) (by decide)⟩)
    (apart_fixedPieces (Or.inl (by decide))) (by decide) (Nat.le_add_right _ _) mem

/-- What has been copied to its end, and lies in front of the next string, is there. -/
theorem data_apn (hzero : strlen c.mbimApn ≠ 0) (hroom : 2 * strlen c.mbimApn ≤ buflen)
    (huser : strlen c.mbimUser ≠ 0 → 2 * strlen c.mbimApn ≤ userOffset buflen c)
    (hpasswd : strlen c.mbimPasswd ≠ 0 → 2 * strlen c.mbimApn ≤ passwdOffset buflen c) :
    load (setConnectMem buflen c onoff sessionID mem) setConnectSize (2 * strlen c.mbimApn) =
      wide (chars c.mbimApn) := by
  rw [setConnectMem_eq]
  exact @data_of_pieces buflen accessStringAt 0 c.mbimApn [] _ hzero (by omega)
    (List.forall_mem_append.2
      ⟨apart_behind (by decide) (Nat.le_refl _) fun h => by have := huser h; omega,
        List.forall_mem_append.2
          ⟨apart_behind (by decide) (Nat.le_refl _) fun h => by have := hpasswd h; omega,
            apart_fixedPieces (Or.inr (Nat.le_refl _))⟩⟩) _

theorem data_user (hzero : strlen c.mbimUser ≠ 0)
    (hroom : userOffset buflen c + 2 * strlen c.mbimUser ≤ buflen)
    (hpasswd : strlen c.mbimPasswd ≠ 0 →
      userOffset buflen c + 2 * strlen c.mbimUser ≤ passwdOffset buflen c) :
    load (setConnectMem buflen c onoff sessionID mem) (setConnectSize + userOffset buflen c)
      (2 * strlen c.mbimUser) = wide (chars c.mbimUser) := by
  rw [setConnectMem_eq]
  exact data_of_pieces hzero hroom (List.forall_mem_append.2
    ⟨apart_behind (by decide) (Nat.le_add_right _ _) fun h => by have := hpasswd h; omega,
      apart_fixedPieces (Or.inr (Nat.le_add_right _ _))⟩) _

theorem data_passwd (hzero : strlen c.mbimPasswd ≠ 0)
    (hroom : passwdOffset buflen c + 2 * strlen c.mbimPasswd ≤ buflen) :
    load (setConnectMem buflen c onoff sessionID mem) (setConnectSize + passwdOffset buflen c)
      (2 * strlen c.mbimPasswd) = wide (chars c.mbimPasswd) := by
  rw [setConnectMem_eq, ← List.append_assoc]
  exact data_of_pieces hzero hroom (apart_fixedPieces (Or.inr (Nat.le_add_right _ _))) _

/-- The next place behind a string that has been copied to its end. -/
theorem nextOffset_of_room {offset : ℕ} {s : Option CStr}
    (h : strlen s ≠ 0 → offset + 2 * strlen s ≤ buflen) :
    nextOffset buflen offset s = if strlen s = 0 then offset else padded (2 * strlen s) := by
  rw [nextOffset]
  split
  · rfl
  · rename_i hzero
    have hroom := h hzero
    have hcopied : copied buflen offset s = strlen s := by
      rw [copied]
      omega
    rw [hcopied]

theorem userOffset_of_room (h : strlen c.mbimApn ≠ 0 → 2 * strlen c.mbimApn ≤ buflen) :
    userOffset buflen c = padded (2 * strlen c.mbimApn) := by
  rw [userOffset, nextOffset_of_room (by rwa [Nat.zero_add])]
  split
  · rename_i hzero
    rw [hzero]
    rfl
  · rfl

theorem passwdOffset_of_room (happn : strlen c.mbimApn ≠ 0 → 2 * strlen c.mbimApn ≤ buflen)
    (huser : strlen c.mbimUser ≠ 0 → userOffset buflen c + 2 * strlen c.mbimUser ≤ buflen) :
    passwdOffset buflen c =
      if strlen c.mbimUser = 0 then padded (2 * strlen c.mbimApn)
      else padded (2 * strlen c.mbimUser) := by
  rw [passwdOffset, nextOffset_of_room huser, userOffset_of_room c happn]

/-- With three strings the password lies on the APN or on the user. -/
theorem overlap (happn : strlen c.mbimApn ≠ 0) (huser : strlen c.mbimUser ≠ 0) :
    padded (2 * strlen c.mbimUser) < 2 * strlen c.mbimApn ∨
      padded (2 * strlen c.mbimApn) ≤ padded (2 * strlen c.mbimUser) ∧
        padded (2 * strlen c.mbimUser) < padded (2 * strlen c.mbimApn) + 2 * strlen c.mbimUser := by
  simp only [padded]
  omega

/-- A structure that is encoded has room for its strings, and has not three of them. -/
theorem room_of_connectEncoded (hlt : buflen < 2 ^ 31) (hbuflen : buflen % 4 = 0)
    (h : ConnectEncoded c (setConnectMem buflen c onoff sessionID mem)
      (setConnectSize + buflen)) :
    roomNeeded c ≤ buflen ∧
      (strlen c.mbimApn = 0 ∨ strlen c.mbimUser = 0 ∨ strlen c.mbimPasswd = 0) := by
  have happn := @says_apn buflen c onoff sessionID mem
  have huser := says_user c onoff sessionID mem hlt hbuflen
  have hpasswd := says_passwd c onoff sessionID mem hlt hbuflen
  have happnRoom : strlen c.mbimApn ≠ 0 → 2 * strlen c.mbimApn ≤ buflen := by
    intro hzero
    have hroom := happn.room h.apn hzero
    omega
  have huserRoom := fun hzero => (huser.room h.user hzero).2
  have hpasswdRoom := fun hzero => (hpasswd.room h.passwd hzero).2
  have huserOffset := userOffset_of_room c happnRoom
  have hpasswdOffset := passwdOffset_of_room c happnRoom huserRoom
  have hfew : strlen c.mbimApn = 0 ∨ strlen c.mbimUser = 0 ∨ strlen c.mbimPasswd = 0 := by
    by_contra hall
    rw [not_or, not_or] at hall
    obtain ⟨happnSome, huserSome, hpasswdSome⟩ := hall
    rw [if_neg huserSome] at hpasswdOffset
    -- the first byte of the password is in one of the others
    have hin : InRange (setConnectMem buflen c onoff sessionID mem) passwordAt
        (setConnectSize + passwdOffset buflen c) :=
      (hpasswd.inRange_iff (hpasswd.room h.passwd hpasswdSome).1 _).2
        ⟨hpasswdSome, Nat.le_refl _, by omega⟩
    rcases overlap c happnSome huserSome with hapn | ⟨hle, hend⟩
    · refine h.apn_passwd _ ⟨?_, hin⟩
      exact (happn.inRange_iff (happn.room h.apn happnSome).1 _).2 ⟨happnSome, by omega, by omega⟩
    · refine h.user_passwd _ ⟨?_, hin⟩
      exact (huser.inRange_iff (huser.room h.user huserSome).1 _).2 ⟨huserSome, by omega, by omega⟩
  refine ⟨?_, hfew⟩
  rw [roomNeeded]
  rw [hpasswdOffset] at hpasswdRoom
  rw [huserOffset] at huserRoom
  simp only [padded] at huserRoom hpasswdRoom ⊢
  by_cases huserZero : strlen c.mbimUser = 0
  · rw [if_pos huserZero] at hpasswdRoom
    omega
  · rw [if_neg huserZero] at hpasswdRoom
    omega


/-- **Which structures are encoded**, given the room. -/
theorem connectEncoded_iff (hlt : buflen < 2 ^ 31) (hbuflen : buflen % 4 = 0) :
    ConnectEncoded c (setConnectMem buflen c onoff sessionID mem) (setConnectSize + buflen) ↔
      roomNeeded c ≤ buflen ∧
        (strlen c.mbimApn = 0 ∨ strlen c.mbimUser = 0 ∨ strlen c.mbimPasswd = 0) := by
  refine ⟨room_of_connectEncoded c onoff sessionID mem hlt hbuflen, ?_⟩
  rintro ⟨hroom, hfew⟩
  have happn := @says_apn buflen c onoff sessionID mem
  have huser := says_user c onoff sessionID mem hlt hbuflen
  have hpasswd := says_passwd c onoff sessionID mem hlt hbuflen
  rw [roomNeeded] at hroom
  have happnLe := le_padded (2 * strlen c.mbimApn)
  have huserLe := le_padded (2 * strlen c.mbimUser)
  have hpasswdLe := le_padded (2 * strlen c.mbimPasswd)
  have huserOffset := @userOffset_of_room buflen c fun _ => by omega
  have hpasswdOffset := @passwdOffset_of_room buflen c (fun _ => by omega) fun _ => by omega
  -- at most one string is in front of the password
  have hsum : strlen c.mbimPasswd ≠ 0 → passwdOffset buflen c =
      padded (2 * strlen c.mbimApn) + padded (2 * strlen c.mbimUser) := by
    intro hpasswdSome
    rw [hpasswdOffset]
    split
    · rename_i hzero
      rw [hzero]
      rfl
    · rename_i hzero
      have happnZero : strlen c.mbimApn = 0 := by omega
      rw [happnZero]
      exact (Nat.zero_add _).symm
  have happnRange := happn.inRange_iff (by omega)
  have huserRange := huser.inRange_iff (by omega)
  have hpasswdRange := hpasswd.inRange_iff (by omega)
  refine ⟨?_, ?_, ?_, ?_, ?_, ?_⟩
  · refine happn.designates rfl fun hzero => ⟨by omega, by omega, ?_⟩
    refine data_apn c onoff sessionID mem hzero (by omega) (fun _ => by omega) fun hsome => ?_
    rw [hsum hsome]
    omega
  · refine huser.designates (userOffset_emod buflen c) fun hzero => ⟨by omega, by omega, ?_⟩
    refine data_user c onoff sessionID mem hzero (by omega) fun hsome => ?_
    rw [hsum hsome]
    omega
  · refine hpasswd.designates (passwdOffset_emod buflen c) fun hzero => ?_
    rw [hsum hzero]
    refine ⟨by omega, by omega, ?_⟩
    rw [← hsum hzero]
    exact data_passwd c onoff sessionID mem hzero (by rw [hsum hzero]; omega)
  · rintro i ⟨hi, hi'⟩
    have hi := (happnRange i).1 hi
    have hi' := (huserRange i).1 hi'
    omega
  · rintro i ⟨hi, hi'⟩
    have hi := (happnRange i).1 hi
    have hi' := (hpasswdRange i).1 hi'
    have hplace := hsum hi'.1
    omega
  · rintro i ⟨hi, hi'⟩
    have hi := (huserRange i).1 hi
    have hi' := (hpasswdRange i).1 hi'
    have hplace := hsum hi'.1
    omega

end

/-- Whether a structure is encoded can be seen from its bytes. -/
theorem ConnectEncoded.congr {c : ConnectSettings} {mem mem' : ℕ → UInt8} {limit : ℕ}
    (h : ConnectEncoded c mem limit) (hlimit : setConnectSize ≤ limit)
    (hsame : ∀ i < limit, mem' i = mem i) : ConnectEncoded c mem' limit := by
  have hload : ∀ {p n : ℕ}, p + n ≤ limit → load mem' p n = load mem p n := fun hend =>
    load_congr fun i _ hi => hsame i (by omega)
  have hfield : ∀ {p : ℕ}, p + 4 ≤ limit → field32 mem' p = field32 mem p := by
    intro p hend
    rw [field32, field32, hload hend]
  have hdesignates : ∀ {offsetAt : ℕ} {s : Option CStr}, offsetAt + 8 ≤ limit →
      Designates mem limit offsetAt s → Designates mem' limit offsetAt s := by
    intro offsetAt s hat hs
    rw [Designates] at *
    rw [hfield (by omega), hfield (by omega)]
    split at hs
    · rwa [if_pos (by assumption)]
    · rw [if_neg (by assumption), hload hs.2.2]
      exact hs
  have hrange : ∀ {offsetAt i : ℕ}, offsetAt + 8 ≤ limit →
      (InRange mem' offsetAt i ↔ InRange mem offsetAt i) := by
    intro offsetAt i hat
    rw [InRange, InRange, hfield (by omega), hfield (by omega)]
  have happn : accessStringAt + 8 ≤ limit := Nat.le_trans (by decide) hlimit
  have huser : userNameAt + 8 ≤ limit := Nat.le_trans (by decide) hlimit
  have hpasswd : passwordAt + 8 ≤ limit := Nat.le_trans (by decide) hlimit
  refine ⟨hdesignates happn h.apn, hdesignates huser h.user, hdesignates hpasswd h.passwd, ?_, ?_,
    ?_⟩
  · intro i
    rw [hrange happn, hrange huser]
    exact h.apn_user i
  · intro i
    rw [hrange happn, hrange hpasswd]
    exact h.apn_passwd i
  · intro i
    rw [hrange huser, hrange hpasswd]
    exact h.user_passwd i

/-- The room is there exactly when it fits an `int`. -/
theorem roomNeeded_le_iff {c : ConnectSettings} {buflen : ℕ} (h : connectBuflen c = buflen) :
    roomNeeded c ≤ buflen ↔ roomNeeded c < 2 ^ 31 := by
  have hlt := connectBuflen_lt c
  constructor
  · omega
  · intro hroom
    have heq := connectBuflen_eq hroom
    omega

/-- **A request that is sent is encoded** exactly when one of the strings is empty and all of them
fit an `int`. -/
theorem connectData_iff {w : SizeT} {e : Endian} {c : ConnectSettings}
    {onoff sessionID transactionId : UInt32} {mem pRequest : Option (ℕ → UInt8)}
    {request : ℕ → UInt8}
    (h : mbimSetConnect w e c onoff sessionID transactionId mem pRequest = some request) :
    ConnectEncoded c (fun i => request (commandBufferAt + i)) (field32 request 44).toNat ↔
      roomNeeded c < 2 ^ 31 ∧
        (strlen c.mbimApn = 0 ∨ strlen c.mbimUser = 0 ∨ strlen c.mbimPasswd = 0) := by
  obtain ⟨buflen, setConnect, hbuflen, hlength, hload⟩ := mbimSetConnect_some h
  have hlt := connectBuflen_lt c
  have hmod := connectBuflen_emod c
  have hlimit : (field32 request 44).toNat = setConnectSize + buflen := by
    rw [hlength]
    exact UInt32.toNat_ofNat_of_lt' (by simp only [setConnectSize, UInt32.size]; omega)
  have hbytes := load_eq_iff.1 hload
  simp only [Nat.zero_add] at hbytes
  rw [hlimit, ← roomNeeded_le_iff hbuflen,
    ← connectEncoded_iff c onoff sessionID setConnect (by omega) (by omega)]
  constructor
  · intro hencoded
    exact hencoded.congr (Nat.le_add_right _ _) fun i hi => (hbytes i hi).symm
  · intro hencoded
    exact hencoded.congr (Nat.le_add_right _ _) hbytes

/-- `internet` and `me`, without a password. -/
def twoStrings : ConnectSettings :=
  ⟨some ⟨[0x69, 0x6e, 0x74, 0x65, 0x72, 0x6e, 0x65, 0x74], by decide⟩,
    some ⟨[0x6d, 0x65], by decide⟩, none, 0, 1⟩

/-- They are sent, and encoded. -/
theorem connectData_iff_twoStrings :
    ∃ request, mbimSetConnect .bits64 .little twoStrings 1 0 1 (some fun _ => 0xaa)
        (some fun _ => 0) = some request ∧
      ConnectEncoded twoStrings (fun i => request (commandBufferAt + i))
        (field32 request 44).toNat :=
  ⟨_, rfl, (@connectData_iff .bits64 .little twoStrings 1 0 1 (some fun _ => 0xaa)
    (some fun _ => 0) _ rfl).2 ⟨by decide +kernel, by decide⟩⟩

/-- Three strings of one character. -/
def threeStrings : ConnectSettings :=
  ⟨some ⟨[0x61], by decide⟩, some ⟨[0x62], by decide⟩, some ⟨[0x63], by decide⟩, 0, 1⟩

/-- The user and the password have the same place. -/
theorem not_connectData :
    ¬ ∀ (w : SizeT) (e : Endian) (c : ConnectSettings) (onoff sessionID transactionId : UInt32)
      (mem pRequest : Option (ℕ → UInt8)) (request : ℕ → UInt8),
      mbimSetConnect w e c onoff sessionID transactionId mem pRequest = some request →
        ConnectEncoded c (fun i => request (commandBufferAt + i)) (field32 request 44).toNat := by
  intro h
  have hencoded := h .bits64 .little threeStrings 1 0 1 (some fun _ => 0xaa) (some fun _ => 0) _
    rfl
  exact hencoded.user_passwd 64 ⟨⟨by decide +kernel, by decide +kernel⟩, by decide +kernel,
    by decide +kernel⟩

end QuectelCM

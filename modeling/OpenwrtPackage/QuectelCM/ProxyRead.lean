/-
**Reading a message from a proxy.**

A proxy sends its messages through a stream socket, so that two of them can lie in it one behind the
other.  `qmi_proxy_read` and `mbim_proxy_read` therefore read the header first, and then what the
length in the header says is left of the message.

* `QuectelCM.qmiProxyRead`, `QuectelCM.mbimProxyRead` — the two functions, which differ in the
  header, and in how they compare its length with the size of the buffer;
* `QuectelCM.Respects` — the second `read` asks for what is left of the message, the buffer has room
  for it, and a message that has come is read;
* `QuectelCM.HeaderIncluded` — the length in the header counts the header;
* `QuectelCM.proxyRead_respects_iff` — one is the same as the other;
* `QuectelCM.proxyReads_respect_iff` — **so for both functions**;
* `QuectelCM.proxyReads_not_respect` — a header that says its message has one byte.

A `read` that asks for more bytes than there are gets those that there are.
-/
import OpenwrtPackage.Lib.MachineInt
import OpenwrtPackage.Lib.Memory
import OpenwrtPackage.Qmi.Message

set_option relaxedAutoImplicit false
set_option autoImplicit false

namespace QuectelCM

open Qmi Bytes Memory MachineInt

/-! ### The functions -/

/-- The socket of a proxy. -/
structure ProxySocket where
  /-- what has come when the function is called -/
  avail : List UInt8
  /-- what comes before the second `read` -/
  later : List UInt8
  /-- what `read` returns when nothing is there: 0 at the end, and -1 for an error -/
  idle : {n : ℤ // n ≤ 0}

/-- `read` of up to `count` bytes: its result, and the bytes. -/
def readSocket (idle : {n : ℤ // n ≤ 0}) (avail : List UInt8) (count : ℕ) : ℤ × List UInt8 :=
  if count = 0 ∨ avail ≠ [] then ((avail.take count).length, avail.take count) else (idle, [])

/-- What a function returns, the buffer, and how many bytes the second `read` has asked for. -/
structure ProxyRead where
  nreads : ℤ
  buf : ℕ → UInt8
  second : Option ℕ

/-- The body of the two functions: `length` is the size of the message by its header, and `fits` the
comparison with the size of the buffer. -/
def proxyRead (w : SizeT) (hdrSize : ℕ) (length : List UInt8 → ℕ) (fits : List UInt8 → Prop)
    [DecidablePred fits] (fd : ProxySocket) (buf : ℕ → UInt8) : ProxyRead :=
  let first := readSocket fd.idle fd.avail hdrSize
  let pHdr := store buf 0 first.2
  let header := load pHdr 0 hdrSize
  if first.1 = hdrSize ∧ fits header then
    let count := w.ofInt (length header - hdrSize)
    let second := readSocket fd.idle (fd.avail.drop hdrSize ++ fd.later) count
    ⟨first.1 + second.1, store pHdr hdrSize second.2, some count⟩
  else ⟨first.1, pHdr, none⟩

/-- `qmi_proxy_read` -/
def qmiProxyRead (w : SizeT) (fd : ProxySocket) (buf : ℕ → UInt8) (size : ℕ) : ProxyRead :=
  proxyRead w qcqmiHdrSize qmiSize (fun header => qmiHdrLength header < size) fd buf

/-- `sizeof(MBIM_MESSAGE_HEADER)` -/
def mbimMessageHeaderSize : ℕ := 12

/-- `le32toh(pResponse->MessageLength)` -/
def messageLength (header : List UInt8) : ℕ := (le32At header 4).toNat

/-- `mbim_proxy_read` -/
def mbimProxyRead (w : SizeT) (fd : ProxySocket) (pResponse : ℕ → UInt8) (size : ℕ) : ProxyRead :=
  proxyRead w mbimMessageHeaderSize messageLength (fun header => messageLength header ≤ size) fd
    pResponse

/-! ### What they are for -/

/-- The second `read` asks for no more than there is room for behind the header, and for what is
left of the message, without a wrap; and a message that the buffer has room for is read when it is
there. -/
structure Respects (hdrSize : ℕ) (length : List UInt8 → ℕ) (size : ℕ) (fd : ProxySocket)
    (r : ProxyRead) : Prop where
  room : ∀ n ∈ r.second, (n : ℤ) ≤ size - hdrSize
  no_wrap : ∀ n ∈ r.second, (n : ℤ) = length (load r.buf 0 hdrSize) - hdrSize
  complete : fd.avail ≠ [] → length (load r.buf 0 hdrSize) ≤ size →
    length (load r.buf 0 hdrSize) ≤ fd.avail.length →
      (length (load r.buf 0 hdrSize) : ℤ) ≤ r.nreads ∧
        load r.buf 0 (length (load r.buf 0 hdrSize)) =
          fd.avail.take (length (load r.buf 0 hdrSize))

/-- A header that has come whole, of a message that the buffer has room for, counts itself. -/
def HeaderIncluded (hdrSize : ℕ) (length : List UInt8 → ℕ) (size : ℕ) (fd : ProxySocket) : Prop :=
  hdrSize ≤ fd.avail.length → length (fd.avail.take hdrSize) ≤ size →
    hdrSize ≤ length (fd.avail.take hdrSize)

/-! ### When they do it -/

theorem readSocket_of_ne_nil {idle : {n : ℤ // n ≤ 0}} {avail : List UInt8} {count : ℕ}
    (h : avail ≠ []) :
    readSocket idle avail count = (((avail.take count).length : ℤ), avail.take count) := by
  rw [readSocket, if_pos (Or.inr h)]

/-- All bytes that are asked for are there. -/
theorem readSocket_of_le {idle : {n : ℤ // n ≤ 0}} {avail : List UInt8} {count : ℕ}
    (h : count ≤ avail.length) :
    readSocket idle avail count = ((count : ℤ), avail.take count) := by
  by_cases hcount : count = 0
  · subst hcount
    rw [readSocket, if_pos (Or.inl rfl)]
    rfl
  · have hne : avail ≠ [] := by
      rintro rfl
      exact hcount (Nat.le_zero.1 h)
    rw [readSocket_of_ne_nil hne, List.length_take_of_le h]

section

variable {w : SizeT} {hdrSize size : ℕ} {length : List UInt8 → ℕ} {fits : List UInt8 → Prop}
  [DecidablePred fits] {fd : ProxySocket} {buf : ℕ → UInt8}

/-- Less than a header has come: there is no second `read`. -/
theorem proxyRead_of_lt (h : fd.avail.length < hdrSize) :
    proxyRead w hdrSize length fits fd buf =
      ⟨(readSocket fd.idle fd.avail hdrSize).1,
        store buf 0 (readSocket fd.idle fd.avail hdrSize).2, none⟩ := by
  have hshort : (readSocket fd.idle fd.avail hdrSize).1 ≠ hdrSize := by
    by_cases hnil : fd.avail = []
    · have hidle := fd.idle.2
      rw [readSocket, if_neg (by rintro (h0 | hne); exacts [by omega, hne hnil])]
      dsimp only
      omega
    · rw [readSocket_of_ne_nil hnil, List.take_of_length_le (Nat.le_of_lt h)]
      dsimp only
      omega
  unfold proxyRead
  exact if_neg fun hboth => hshort hboth.1

/-- A header has come. -/
theorem proxyRead_of_le (h : hdrSize ≤ fd.avail.length) :
    proxyRead w hdrSize length fits fd buf =
      if fits (fd.avail.take hdrSize) then
        let count := w.ofInt (length (fd.avail.take hdrSize) - hdrSize)
        let second := readSocket fd.idle (fd.avail.drop hdrSize ++ fd.later) count
        ⟨hdrSize + second.1, store (store buf 0 (fd.avail.take hdrSize)) hdrSize second.2,
          some count⟩
      else ⟨hdrSize, store buf 0 (fd.avail.take hdrSize), none⟩ := by
  unfold proxyRead
  rw [readSocket_of_le h]
  dsimp only
  rw [load_store_front buf 0 h]
  by_cases hfits : fits (fd.avail.take hdrSize)
  · rw [if_pos ⟨rfl, hfits⟩, if_pos hfits]
  · rw [if_neg fun hboth => hfits hboth.2, if_neg hfits]

/-- The header stays in front of whatever is read behind it. -/
theorem load_header (h : hdrSize ≤ fd.avail.length) (bytes : List UInt8) :
    load (store (store buf 0 (fd.avail.take hdrSize)) hdrSize bytes) 0 hdrSize =
      fd.avail.take hdrSize := by
  rw [load_store_of_le _ _ (Nat.le_of_eq (Nat.zero_add _)), load_store_front buf 0 h]

/-- A message that has come, with its header counted, is read in two steps as in one. -/
theorem store_two_steps {n : ℕ} (hhdr : hdrSize ≤ n) (hn : n ≤ fd.avail.length) :
    store (store buf 0 (fd.avail.take hdrSize)) hdrSize
        ((fd.avail.drop hdrSize ++ fd.later).take (n - hdrSize)) =
      store buf 0 (fd.avail.take n) := by
  have hrest : (fd.avail.drop hdrSize ++ fd.later).take (n - hdrSize) =
      (fd.avail.drop hdrSize).take (n - hdrSize) := by
    refine List.take_append_of_le_length ?_
    rw [List.length_drop]
    omega
  have hsplit : fd.avail.take n =
      fd.avail.take hdrSize ++ (fd.avail.drop hdrSize).take (n - hdrSize) := by
    have hsum : hdrSize + (n - hdrSize) = n := by omega
    rw [← List.take_add, hsum]
  rw [hrest, hsplit, store_append, Nat.zero_add, List.length_take_of_le (by omega)]

/-- **The reads respect the buffer exactly when the length counts the header.** -/
theorem proxyRead_respects_iff (hfits : ∀ header, fits header ↔ length header ≤ size)
    (hsize : size < w.modulus) (hpos : 0 < hdrSize) (hhdr : hdrSize ≤ 2 ^ 32) :
    Respects hdrSize length size fd (proxyRead w hdrSize length fits fd buf) ↔
      HeaderIncluded hdrSize length size fd := by
  rcases Nat.lt_or_ge fd.avail.length hdrSize with hshort | hwhole
  · -- no header: nothing is asked for, and a message of a few bytes has been read already
    refine iff_of_true ?_ fun hle => absurd hle (Nat.not_le.2 hshort)
    rw [proxyRead_of_lt hshort]
    refine ⟨fun n hn => ?_, fun n hn => ?_, fun hne _ hlen => ?_⟩
    · cases hn
    · cases hn
    · dsimp only at hlen ⊢
      rw [readSocket_of_ne_nil hne, List.take_of_length_le (Nat.le_of_lt hshort)] at hlen ⊢
      exact ⟨Int.ofNat_le.2 hlen, load_store_take buf 0 hlen⟩
  · rw [proxyRead_of_le hwhole]
    by_cases hroom : length (fd.avail.take hdrSize) ≤ size
    · rw [if_pos ((hfits _).2 hroom)]
      dsimp only
      have hmodulus := w.modulus_ge
      constructor
      · intro hrespects _ _
        have hcount := hrespects.room _ rfl
        by_contra hsmall
        -- a length below that of the header wraps to a number near the modulus
        have hsub : ((length (fd.avail.take hdrSize) : ℤ) - hdrSize) =
            -((hdrSize - length (fd.avail.take hdrSize) : ℕ) : ℤ) := by
          omega
        rw [hsub, w.ofInt_of_neg (by omega) (by omega)] at hcount
        omega
      · intro hincluded
        have hcounted := hincluded hwhole hroom
        have hsub : ((length (fd.avail.take hdrSize) : ℤ) - hdrSize) =
            (length (fd.avail.take hdrSize) - hdrSize : ℕ) := by
          omega
        rw [hsub, w.ofInt_of_lt (by omega)]
        refine ⟨fun n hn => ?_, fun n hn => ?_, fun _ _ hlen => ?_⟩
        · obtain rfl := Option.some.inj hn
          omega
        · obtain rfl := Option.some.inj hn
          dsimp only
          rw [load_header hwhole, hsub]
        · dsimp only at hlen ⊢
          rw [load_header hwhole] at hlen ⊢
          have hread := @readSocket_of_le fd.idle (fd.avail.drop hdrSize ++ fd.later)
            (length (fd.avail.take hdrSize) - hdrSize)
            (by rw [List.length_append, List.length_drop]; omega)
          rw [hread, store_two_steps hcounted hlen]
          have hfull := List.length_take_of_le hlen
          refine ⟨by omega, ?_⟩
          exact load_store_front buf 0 hlen
    · rw [if_neg (mt (hfits _).1 hroom)]
      have hheader := load_store_front buf 0 hwhole
      refine iff_of_true ⟨fun n hn => ?_, fun n hn => ?_, fun _ hle => ?_⟩ fun _ hle =>
        absurd hle hroom
      · cases hn
      · cases hn
      · rw [hheader] at hle
        exact absurd hle hroom

end

/-- **Both functions respect their buffer exactly when the length in the header counts the
header.** -/
theorem proxyReads_respect_iff (w : SizeT) (fd : ProxySocket) (buf : ℕ → UInt8) {size : ℕ}
    (hsize : size < w.modulus) :
    (Respects qcqmiHdrSize qmiSize size fd (qmiProxyRead w fd buf size) ↔
        HeaderIncluded qcqmiHdrSize qmiSize size fd) ∧
      (Respects mbimMessageHeaderSize messageLength size fd (mbimProxyRead w fd buf size) ↔
        HeaderIncluded mbimMessageHeaderSize messageLength size fd) :=
  ⟨proxyRead_respects_iff (fun _ => Iff.rfl) hsize (by decide) (by decide),
    proxyRead_respects_iff (fun _ => Iff.rfl) hsize (by decide) (by decide)⟩

/-- A request for a client id, and nothing behind it. -/
theorem proxyReads_respect_getClientIdReq :
    4096 < SizeT.modulus .bits64 ∧
      let fd : ProxySocket := ⟨getClientIdReq 1 1, [], ⟨-1, by decide⟩⟩
      (Respects qcqmiHdrSize qmiSize 4096 fd (qmiProxyRead .bits64 fd (fun _ => 0) 4096) ↔
          HeaderIncluded qcqmiHdrSize qmiSize 4096 fd) ∧
        (Respects mbimMessageHeaderSize messageLength 4096 fd
            (mbimProxyRead .bits64 fd (fun _ => 0) 4096) ↔
          HeaderIncluded mbimMessageHeaderSize messageLength 4096 fd) :=
  ⟨by decide, proxyReads_respect_iff .bits64 _ _ (by decide)⟩

/-- Twelve zeros are a header of a message of one byte for the one function, and of none for the
other. -/
theorem proxyReads_not_respect : ¬ ∀ (w : SizeT) (fd : ProxySocket) (buf : ℕ → UInt8) (size : ℕ),
    size < w.modulus →
      Respects qcqmiHdrSize qmiSize size fd (qmiProxyRead w fd buf size) ∧
        Respects mbimMessageHeaderSize messageLength size fd (mbimProxyRead w fd buf size) := by
  intro hall
  have hzeros := (hall .bits64 ⟨List.replicate 12 0, [], ⟨-1, by decide⟩⟩ (fun _ => 0) 4096
    (by decide)).1
  exact absurd (hzeros.room _ rfl) (by decide +kernel)

end QuectelCM

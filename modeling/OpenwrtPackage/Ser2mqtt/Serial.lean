/-
**Reading the serial line.**

`serial.c` of `ser2mqtt`: bytes are read one by one, each with a `select` that waits for it, and
are put together to a packet.  The state is the clock, in microseconds, and what is still to arrive;
time passes in `select`, and more of it with each reading of the clock.

* `Ser2mqtt.serialReceiveByte`, `Ser2mqtt.serialReceiveModbus` — the two functions;
* `Ser2mqtt.packets` — the packets that a number of calls return;
* `Ser2mqtt.line` — a line without faults, read by a program that takes no time;
* `Ser2mqtt.receiveLoop_prompt` — **the loop takes all bytes that come in time**;
* `Ser2mqtt.packets_wait` — calls that find nothing only let time pass.
-/
import Mathlib.Data.Int.Notation
import Mathlib.Data.List.Basic

set_option relaxedAutoImplicit false
set_option autoImplicit false

namespace Ser2mqtt

/-! ### The line and the clock -/

/-- What may go wrong in a call of `serial_receive_byte`. -/
inductive Fault
  | none
  | select
  | read
  deriving DecidableEq

/-- The serial line and the clock. -/
structure Serial where
  /-- `serial_fd` is open. -/
  opened : Bool
  /-- The time, in microseconds. -/
  now : ℕ
  /-- What the next readings of the clock take, in microseconds. -/
  lags : List ℕ
  /-- The bytes that have not been read, each with the time when it arrives. -/
  arrivals : List (ℕ × UInt8)
  /-- What goes wrong in the next calls of `serial_receive_byte`. -/
  faults : List Fault
  deriving DecidableEq

/-- `struct timeval`. -/
structure Timeval where
  tvSec : ℤ
  tvUsec : ℤ
  deriving DecidableEq

/-- `gettimeofday`. -/
def gettimeofday (s : Serial) : Timeval × Serial :=
  (⟨s.now / 1000000, s.now % 1000000⟩,
    { s with now := s.now + s.lags.headD 0, lags := s.lags.tail })

/-- The `time_diff` of two readings of the clock. -/
def timeDiff (lastByteTime currentTime : Timeval) : ℤ :=
  (currentTime.tvSec - lastByteTime.tvSec) * 1000 +
    (currentTime.tvUsec - lastByteTime.tvUsec).tdiv 1000

/-- No time has passed between two equal readings. -/
@[simp] theorem timeDiff_self (t : Timeval) : timeDiff t t = 0 := by
  simp [timeDiff]

/-- The `tv` of `select`, in microseconds. -/
def selectTimeout (timeoutMs : ℕ) : ℕ := timeoutMs / 1000 * 1000000 + timeoutMs % 1000 * 1000

/-! ### The functions -/

/-- What `serial_receive_byte` returns: `1` with a byte, `0` or `-1`. -/
inductive Received
  | byte (b : UInt8)
  | timeout
  | error
  deriving DecidableEq

/-- `serial_receive_byte`. -/
def serialReceiveByte (timeoutMs : ℕ) (s : Serial) : Received × Serial :=
  if s.opened then
    match s.faults.headD .none, s.arrivals with
    | .select, _ => (.error, { s with faults := s.faults.tail })
    | fault, a :: rest =>
        if a.1 ≤ s.now + selectTimeout timeoutMs then
          let s := { s with now := max s.now a.1, faults := s.faults.tail }
          -- a `read` that fails is taken for a timeout
          if fault = .read then (.timeout, s) else (.byte a.2, { s with arrivals := rest })
        else (.timeout, { s with now := s.now + selectTimeout timeoutMs, faults := s.faults.tail })
    | _, [] =>
        (.timeout, { s with now := s.now + selectTimeout timeoutMs, faults := s.faults.tail })
  else (.error, s)

/-- The loop of `serial_receive_modbus`, with `room` bytes free behind the bytes in `buffer`; the
result is `index`, and what has been stored. -/
def receiveLoop (timeoutMs : ℕ) : ℕ → List UInt8 → Serial → ℤ × List UInt8 × Serial
  | 0, buffer, s => (buffer.length, buffer, s)
  | room + 1, buffer, s =>
      match serialReceiveByte timeoutMs s with
      | (.byte b, s) =>
          let buffer := buffer ++ [b]
          let lastByteTime := (gettimeofday s).1
          let s := (gettimeofday s).2
          if 4 ≤ buffer.length then
            -- both readings follow the same byte: the test measures their lag, not the line
            let currentTime := (gettimeofday s).1
            let s := (gettimeofday s).2
            if 1 < timeDiff lastByteTime currentTime then (buffer.length, buffer, s)
            else receiveLoop timeoutMs room buffer s
          else receiveLoop timeoutMs room buffer s
      | (.timeout, s) => if 0 < buffer.length then (buffer.length, buffer, s) else (0, buffer, s)
      | (.error, s) => (-1, buffer, s)

/-- `serial_receive_modbus`. -/
def serialReceiveModbus (bufferSize timeoutMs : ℕ) (s : Serial) : ℤ × List UInt8 × Serial :=
  if s.opened then receiveLoop timeoutMs bufferSize [] (gettimeofday s).2 else (-1, [], s)

/-- The packets of the first `n` turns of the loop of `main`: the bytes of the positive results. -/
def packets (bufferSize timeoutMs : ℕ) : ℕ → Serial → List (List UInt8)
  | 0, _ => []
  | n + 1, s =>
      match serialReceiveModbus bufferSize timeoutMs s with
      | (bytesRead, buf, s) =>
          if 0 < bytesRead then buf.take bytesRead.toNat :: packets bufferSize timeoutMs n s
          else packets bufferSize timeoutMs n s

/-! ### A line without faults -/

/-- The line on which the bytes arrive, with no faults, and a program that takes no time. -/
def line (now : ℕ) (arrivals : List (ℕ × UInt8)) : Serial := ⟨true, now, [], arrivals, []⟩

/-- Nothing arrives up to some time. -/
def Quiet (until_ : ℕ) (arrivals : List (ℕ × UInt8)) : Prop :=
  ∀ a ∈ arrivals.head?, until_ < a.1

/-- From `now` on each byte arrives at most `limit` after the one before it. -/
def Prompt (limit : ℕ) : ℕ → List (ℕ × UInt8) → Prop
  | _, [] => True
  | now, a :: rest => now ≤ a.1 ∧ a.1 ≤ now + limit ∧ Prompt limit a.1 rest

/-- The time of the last arrival, or `now`. -/
def lastArrival (now : ℕ) (arrivals : List (ℕ × UInt8)) : ℕ :=
  arrivals.foldl (fun _ a => a.1) now

/-- What has arrived. -/
def received (arrivals : List (ℕ × UInt8)) : List UInt8 := arrivals.map Prod.snd

variable {bufferSize timeoutMs room now : ℕ} {buffer : List UInt8} {arrivals rest : List (ℕ × UInt8)}

/-- Something arrives in time, or nothing. -/
theorem ready_or_quiet (until_ : ℕ) (arrivals : List (ℕ × UInt8)) :
    (∃ a rest, arrivals = a :: rest ∧ a.1 ≤ until_) ∨ Quiet until_ arrivals := by
  cases arrivals with
  | nil => exact Or.inr fun a ha => by simp at ha
  | cons a rest =>
      rcases Nat.lt_or_ge until_ a.1 with h | h
      · refine Or.inr fun a' ha => ?_
        rw [List.head?_cons, Option.mem_some] at ha
        exact ha ▸ h
      · exact Or.inl ⟨a, rest, rfl, h⟩

theorem serialReceiveByte_ready {a : ℕ × UInt8} (h : a.1 ≤ now + selectTimeout timeoutMs) :
    serialReceiveByte timeoutMs (line now (a :: rest)) =
      (.byte a.2, line (max now a.1) rest) := by
  simp [serialReceiveByte, line, h]

theorem serialReceiveByte_quiet (h : Quiet (now + selectTimeout timeoutMs) arrivals) :
    serialReceiveByte timeoutMs (line now arrivals) =
      (.timeout, line (now + selectTimeout timeoutMs) arrivals) := by
  cases arrivals with
  | nil => rfl
  | cons a rest =>
      have hlate : ¬ a.1 ≤ now + selectTimeout timeoutMs := Nat.not_le.2 (h a rfl)
      simp [serialReceiveByte, line, hlate]

/-- Reading the clock does not change such a line. -/
theorem gettimeofday_line : (gettimeofday (line now arrivals)).2 = line now arrivals := rfl

theorem serialReceiveModbus_line : serialReceiveModbus bufferSize timeoutMs (line now arrivals) =
    receiveLoop timeoutMs bufferSize [] (line now arrivals) := rfl

/-- A byte that comes in time is stored, and the loop goes on: the threshold is never reached. -/
theorem receiveLoop_ready {a : ℕ × UInt8} (h : a.1 ≤ now + selectTimeout timeoutMs) :
    receiveLoop timeoutMs (room + 1) buffer (line now (a :: rest)) =
      receiveLoop timeoutMs room (buffer ++ [a.2]) (line (max now a.1) rest) := by
  rw [receiveLoop, serialReceiveByte_ready h]
  simp only [gettimeofday_line, timeDiff_self, Int.reduceLT, if_false, ite_self]

/-- In silence the loop gives back what it has. -/
theorem receiveLoop_quiet (h : Quiet (now + selectTimeout timeoutMs) arrivals) :
    receiveLoop timeoutMs (room + 1) buffer (line now arrivals) =
      ((buffer.length : ℤ), buffer, line (now + selectTimeout timeoutMs) arrivals) := by
  simp only [receiveLoop, serialReceiveByte_quiet h]
  cases buffer <;> rfl

/-- **The loop takes all bytes that come in time**, as far as there is room. -/
theorem receiveLoop_prompt (h : Prompt (selectTimeout timeoutMs) now arrivals) :
    receiveLoop timeoutMs (arrivals.length + room) buffer (line now (arrivals ++ rest)) =
      receiveLoop timeoutMs room (buffer ++ received arrivals)
        (line (lastArrival now arrivals) rest) := by
  induction arrivals generalizing now buffer with
  | nil => simp [received, lastArrival]
  | cons a arrivals ih =>
      obtain ⟨h1, h2, hrest⟩ := h
      have hroom : (a :: arrivals).length + room = arrivals.length + room + 1 := by
        rw [List.length_cons]
        omega
      rw [hroom, List.cons_append, receiveLoop_ready h2, Nat.max_eq_right h1, ih hrest,
        List.append_assoc]
      rfl

/-- The loop gives back at least what it has, and leaves such a line behind. -/
theorem receiveLoop_extends (room now : ℕ) (buffer : List UInt8) (arrivals : List (ℕ × UInt8)) :
    ∃ more now' rest, receiveLoop timeoutMs room buffer (line now arrivals) =
      (((buffer ++ more).length : ℤ), buffer ++ more, line now' rest) := by
  induction room generalizing now buffer arrivals with
  | zero => exact ⟨[], now, arrivals, by rw [List.append_nil, receiveLoop]⟩
  | succ room ih =>
      rcases ready_or_quiet (now + selectTimeout timeoutMs) arrivals with ⟨a, rest, rfl, h⟩ | h
      · obtain ⟨more, now', rest', hloop⟩ := ih (max now a.1) (buffer ++ [a.2]) rest
        refine ⟨a.2 :: more, now', rest', ?_⟩
        rw [receiveLoop_ready h, hloop, List.append_assoc, List.singleton_append]
      · exact ⟨[], _, arrivals, by rw [List.append_nil, receiveLoop_quiet h]⟩

/-! ### The packets -/

/-- A call that returns bytes adds a packet. -/
theorem packets_succ_of_pos {n : ℕ} {s s' : Serial} {buf : List UInt8}
    (h : serialReceiveModbus bufferSize timeoutMs s = ((buf.length : ℤ), buf, s'))
    (hpos : buf ≠ []) :
    packets bufferSize timeoutMs (n + 1) s = buf :: packets bufferSize timeoutMs n s' := by
  have hlen : 0 < (buf.length : ℤ) := Int.natCast_pos.2 (List.length_pos_iff.2 hpos)
  simp only [packets, h, if_pos hlen, Int.toNat_natCast, List.take_length]

/-- A call in silence adds nothing. -/
theorem packets_succ_quiet {n : ℕ} (hsize : 0 < bufferSize)
    (h : Quiet (now + selectTimeout timeoutMs) arrivals) :
    packets bufferSize timeoutMs (n + 1) (line now arrivals) =
      packets bufferSize timeoutMs n (line (now + selectTimeout timeoutMs) arrivals) := by
  obtain ⟨room, rfl⟩ : ∃ room, bufferSize = room + 1 := ⟨bufferSize - 1, by omega⟩
  have hcall : serialReceiveModbus (room + 1) timeoutMs (line now arrivals) =
      (0, [], line (now + selectTimeout timeoutMs) arrivals) := by
    rw [serialReceiveModbus_line, receiveLoop_quiet h]
    rfl
  simp only [packets, hcall, Int.lt_irrefl, if_false]

/-- **Some calls find nothing**, and then the next byte is near. -/
theorem packets_wait (hsize : 0 < bufferSize) (htimeout : 0 < selectTimeout timeoutMs)
    {a : ℕ × UInt8} (h : now ≤ a.1) :
    ∃ k now', now' ≤ a.1 ∧ a.1 ≤ now' + selectTimeout timeoutMs ∧
      ∀ n, packets bufferSize timeoutMs (n + k) (line now (a :: rest)) =
        packets bufferSize timeoutMs n (line now' (a :: rest)) := by
  -- on the time that is left until the byte arrives
  induction hleft : a.1 - now using Nat.strongRecOn generalizing now with
  | _ left ih =>
      rcases Nat.lt_or_ge (now + selectTimeout timeoutMs) a.1 with hlate | hnear
      · obtain ⟨k, now', h1, h2, hk⟩ := @ih (a.1 - (now + selectTimeout timeoutMs)) (by omega)
          (now + selectTimeout timeoutMs) (by omega) rfl
        refine ⟨k + 1, now', h1, h2, fun n => ?_⟩
        have hquiet : Quiet (now + selectTimeout timeoutMs) (a :: rest) := by
          intro a' ha
          rw [List.head?_cons, Option.mem_some] at ha
          exact ha ▸ hlate
        rw [← Nat.add_assoc, packets_succ_quiet hsize hquiet, hk]
      · exact ⟨0, now, h, hnear, fun n => rfl⟩

/-- In silence for ever there are no packets. -/
theorem packets_nil (hsize : 0 < bufferSize) (n now : ℕ) :
    packets bufferSize timeoutMs n (line now []) = [] := by
  induction n generalizing now with
  | zero => rfl
  | succ n ih => rw [packets_succ_quiet hsize (by intro a ha; simp at ha), ih]

end Ser2mqtt

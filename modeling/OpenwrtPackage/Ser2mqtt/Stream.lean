/-
**Nothing that arrives on the serial line is lost.**

A packet of `serial_receive_modbus` ends for one of four reasons: the line is quiet for a while, no
byte comes in time, the buffer is full, or a `read` finds nothing.  Whichever it is, the bytes that
have been taken from the line are in the packets, once each and in order, and the others wait for
the next call.

* `Ser2mqtt.calls` — what a row of calls returns;
* `Ser2mqtt.Takes` — some bytes have been taken from the line, and nothing else;
* `Ser2mqtt.receiveLoop_takes` — the loop stores what it takes;
* `Ser2mqtt.calls_lossless` — **the packets are what has been taken from the stream**.
-/
import OpenwrtPackage.Ser2mqtt.Serial

set_option relaxedAutoImplicit false
set_option autoImplicit false

namespace Ser2mqtt

/-- A call of `serial_receive_modbus`. -/
structure Call where
  bufferSize : ℕ
  timeoutMs : ℕ

/-- What the calls of a row return, each with the bytes in its buffer. -/
def calls : List Call → Serial → List (ℤ × List UInt8) × Serial
  | [], s => ([], s)
  | c :: cs, s =>
      let r := serialReceiveModbus c.bufferSize c.timeoutMs s
      let rest := calls cs r.2.2
      ((r.1, r.2.1) :: rest.1, rest.2)

/-- The packet that a call returns: as many bytes of the buffer as its result says. -/
def packet (r : ℤ × List UInt8) : List UInt8 := r.2.take r.1.toNat

/-- From `s` to `s'` the bytes `bytes` have been taken from the line. -/
structure Takes (s s' : Serial) (bytes : List UInt8) : Prop where
  opened : s'.opened = s.opened
  faults : s'.faults <:+ s.faults
  arrivals : ∃ used, s.arrivals = used ++ s'.arrivals ∧ received used = bytes

theorem Takes.refl (s : Serial) : Takes s s [] :=
  ⟨rfl, List.suffix_refl _, [], rfl, rfl⟩

theorem Takes.trans {s t u : Serial} {bs cs : List UInt8} (h : Takes s t bs) (h' : Takes t u cs) :
    Takes s u (bs ++ cs) := by
  obtain ⟨used, harrivals, hused⟩ := h.arrivals
  obtain ⟨used', harrivals', hused'⟩ := h'.arrivals
  refine ⟨h'.opened.trans h.opened, h'.faults.trans h.faults, used ++ used', ?_, ?_⟩
  · rw [harrivals, harrivals', List.append_assoc]
  · rw [received, List.map_append]
    exact congrArg₂ _ hused hused'

/-- No call of `select` fails. -/
theorem Takes.select {s s' : Serial} {bytes : List UInt8} (h : Takes s s' bytes)
    (hselect : Fault.select ∉ s.faults) : Fault.select ∉ s'.faults :=
  fun hmem => hselect (h.faults.subset hmem)

/-- Reading the clock takes nothing from the line. -/
theorem gettimeofday_takes (s : Serial) : Takes s (gettimeofday s).2 [] :=
  ⟨rfl, List.suffix_refl _, [], rfl, rfl⟩

/-- What `serial_receive_byte` returns has been taken from the line. -/
theorem serialReceiveByte_takes (timeoutMs : ℕ) {s : Serial} (hopen : s.opened = true)
    (hselect : Fault.select ∉ s.faults) :
    (∃ b s', serialReceiveByte timeoutMs s = (.byte b, s') ∧ Takes s s' [b]) ∨
      ∃ s', serialReceiveByte timeoutMs s = (.timeout, s') ∧ Takes s s' [] := by
  have htail : s.faults.tail <:+ s.faults := List.tail_suffix _
  have hfault : s.faults.headD .none = .none ∨ s.faults.headD .none = .read := by
    cases hfaults : s.faults with
    | nil => exact Or.inl rfl
    | cons f fs =>
        cases f with
        | none => exact Or.inl rfl
        | select => exact absurd (hfaults ▸ List.mem_cons_self ..) hselect
        | read => exact Or.inr rfl
  unfold serialReceiveByte
  rw [if_pos hopen]
  cases harrivals : s.arrivals with
  | nil =>
      refine Or.inr ⟨{ s with now := s.now + selectTimeout timeoutMs, faults := s.faults.tail },
        ?_, rfl, htail, [], rfl, rfl⟩
      rcases hfault with h | h <;> rw [h, harrivals]
  | cons a rest =>
      by_cases hready : a.1 ≤ s.now + selectTimeout timeoutMs
      · rcases hfault with h | h
        · refine Or.inl ⟨a.2, { s with
            now := max s.now a.1, faults := s.faults.tail, arrivals := rest },
            ?_, rfl, htail, [a], harrivals, rfl⟩
          simp only [h, if_pos hready]
          rfl
        · refine Or.inr ⟨{ s with now := max s.now a.1, faults := s.faults.tail },
            ?_, rfl, htail, [], rfl, rfl⟩
          simp only [h, if_pos hready, harrivals]
          rfl
      · refine Or.inr ⟨{ s with now := s.now + selectTimeout timeoutMs, faults := s.faults.tail },
          ?_, rfl, htail, [], rfl, rfl⟩
        rcases hfault with h | h <;> simp only [h, if_neg hready, harrivals]

/-- **The loop stores what it takes**, as far as there is room. -/
theorem receiveLoop_takes (timeoutMs room : ℕ) (buffer : List UInt8) {s : Serial}
    (hopen : s.opened = true) (hselect : Fault.select ∉ s.faults) :
    ∃ more s', receiveLoop timeoutMs room buffer s =
        (((buffer ++ more).length : ℤ), buffer ++ more, s') ∧
      more.length ≤ room ∧ Takes s s' more := by
  induction room generalizing buffer s with
  | zero => exact ⟨[], s, by rw [List.append_nil, receiveLoop], Nat.le_refl _, Takes.refl s⟩
  | succ room ih =>
      rcases serialReceiveByte_takes timeoutMs hopen hselect with
        ⟨b, s₁, hread, htakes⟩ | ⟨s₁, hread, htakes⟩
      · have htakes₂ : Takes s (gettimeofday s₁).2 [b] := htakes.trans (gettimeofday_takes s₁)
        have htakes₃ : Takes s (gettimeofday (gettimeofday s₁).2).2 [b] :=
          htakes₂.trans (gettimeofday_takes _)
        -- however often the clock is read behind the byte, the rest of the call takes the rest
        have hgo : ∀ {t : Serial}, Takes s t [b] → ∃ more s',
            receiveLoop timeoutMs room (buffer ++ [b]) t =
              (((buffer ++ more).length : ℤ), buffer ++ more, s') ∧
            more.length ≤ room + 1 ∧ Takes s s' more := by
          intro t ht
          obtain ⟨more, s', hloop, hlen, hmore⟩ := ih (buffer ++ [b]) (ht.opened.trans hopen)
            (ht.select hselect)
          rw [List.append_assoc, List.singleton_append] at hloop
          exact ⟨b :: more, s', hloop, Nat.succ_le_succ hlen, ht.trans hmore⟩
        rw [receiveLoop, hread]
        dsimp only
        split
        · split
          · exact ⟨[b], _, rfl, Nat.succ_le_succ (Nat.zero_le _), htakes₃⟩
          · exact hgo htakes₃
        · exact hgo htakes₂
      · refine ⟨[], s₁, ?_, Nat.zero_le _, htakes⟩
        rw [receiveLoop, hread, List.append_nil]
        cases buffer with
        | nil => rfl
        | cons b bs => exact if_pos (Nat.succ_pos _)

/-- One call. -/
theorem serialReceiveModbus_takes (c : Call) {s : Serial} (hopen : s.opened = true)
    (hselect : Fault.select ∉ s.faults) :
    ∃ bytes s', serialReceiveModbus c.bufferSize c.timeoutMs s = ((bytes.length : ℤ), bytes, s') ∧
      bytes.length ≤ c.bufferSize ∧ Takes s s' bytes := by
  have hclock := gettimeofday_takes s
  obtain ⟨more, s', hloop, hlen, hmore⟩ := receiveLoop_takes c.timeoutMs c.bufferSize []
    (hclock.opened.trans hopen) (hclock.select hselect)
  refine ⟨more, s', ?_, hlen, hclock.trans hmore⟩
  rw [serialReceiveModbus, if_pos hopen]
  exact hloop

@[simp] theorem packet_length (bytes : List UInt8) :
    packet ((bytes.length : ℤ), bytes) = bytes := by
  rw [packet, Int.toNat_natCast, List.take_length]

/-- **The packets of any row of calls, put together, are what the calls have taken from the
stream**, and none is longer than its buffer. -/
theorem calls_lossless (cs : List Call) (s : Serial) (hopen : s.opened = true)
    (hselect : Fault.select ∉ s.faults) :
    (∃ used, s.arrivals = used ++ (calls cs s).2.arrivals ∧
      received used = (calls cs s).1.flatMap packet) ∧
      List.Forall₂ (fun c r => 0 ≤ r.1 ∧ r.1 = (packet r).length ∧ r.1 ≤ c.bufferSize) cs
        (calls cs s).1 := by
  induction cs generalizing s with
  | nil => exact ⟨⟨[], rfl, rfl⟩, List.Forall₂.nil⟩
  | cons c cs ih =>
      obtain ⟨bytes, s', hcall, hlen, htakes⟩ := serialReceiveModbus_takes c hopen hselect
      obtain ⟨used, harrivals, hused⟩ := htakes.arrivals
      obtain ⟨⟨more, hrest, hmore⟩, hbounds⟩ := ih s' (htakes.opened.trans hopen)
        (htakes.select hselect)
      have hcalls : calls (c :: cs) s =
          (((bytes.length : ℤ), bytes) :: (calls cs s').1, (calls cs s').2) := by
        rw [calls, hcall]
      rw [hcalls]
      refine ⟨⟨used ++ more, ?_, ?_⟩, List.Forall₂.cons ?_ hbounds⟩
      · rw [harrivals, hrest, List.append_assoc]
      · rw [List.flatMap_cons, packet_length, ← hused, ← hmore, received, List.map_append]
        rfl
      · rw [packet_length]
        exact ⟨Int.natCast_nonneg _, rfl, Int.ofNat_le.2 hlen⟩

/-- A burst, a slow program, and a `read` that finds nothing. -/
def burst : Serial where
  opened := true
  now := 0
  lags := [0, 0, 0, 0, 0, 0, 0, 0, 2000]
  arrivals := [(1, 1), (1, 2), (1, 3), (1, 4), (1, 5), (1, 6), (1, 7), (2500, 8)]
  faults := [.none, .none, .none, .none, .none, .none, .none, .read]

/-- Calls that end with a full buffer, with a late reading of the clock, with a failed `read` and
with a silent line. -/
def burstCalls : List Call := [⟨3, 1⟩, ⟨8, 1⟩, ⟨8, 1⟩, ⟨8, 1⟩]

theorem calls_lossless_burst :
    (∃ used, burst.arrivals = used ++ (calls burstCalls burst).2.arrivals ∧
      received used = (calls burstCalls burst).1.flatMap packet) ∧
      List.Forall₂ (fun (c : Call) (r : ℤ × List UInt8) =>
        0 ≤ r.1 ∧ r.1 = (packet r).length ∧ r.1 ≤ c.bufferSize) burstCalls
        (calls burstCalls burst).1 :=
  calls_lossless burstCalls burst rfl (by decide)

end Ser2mqtt

/-
**Frames on the serial line.**

A frame is a group of bytes with less than the threshold of a millisecond between them, and there is
more than that between two frames.  `serial_receive_modbus` tests the threshold right after it has
read a byte, when no time has passed, so that only its timeout of a second, or a full buffer, ends a
packet.

* `Ser2mqtt.Frame` — the bytes of a frame, with their times;
* `Ser2mqtt.WellTimed` — frames with more than the threshold between them;
* `Ser2mqtt.Framed` — the packets that are received are the frames;
* `Ser2mqtt.packets_frame` — a frame with enough silence behind it is a packet;
* `Ser2mqtt.packets_merged` — without it, the packet has more than the frame;
* `Ser2mqtt.framed_iff` — **the packets are the frames exactly when every frame but the last one
  fills the buffer or has more than the timeout behind it**;
* `Ser2mqtt.not_framed` — two frames within ten milliseconds.
-/
import Mathlib.Data.List.Chain
import OpenwrtPackage.Ser2mqtt.Serial

set_option relaxedAutoImplicit false
set_option autoImplicit false

namespace Ser2mqtt

/-! ### Frames -/

/-- The threshold for the end of a frame, in microseconds. -/
def threshold : ℕ := 1000

/-- A frame: at least four bytes, not more than the buffer of `main` holds, with less than the
threshold from each to the next. -/
structure Frame where
  first : ℕ × UInt8
  more : List (ℕ × UInt8)
  three_le : 3 ≤ more.length
  length_le : more.length ≤ 254
  gaps : (first :: more).IsChain fun a a' => a.1 ≤ a'.1 ∧ a'.1 < a.1 + threshold

namespace Frame

/-- The bytes with the times when they arrive. -/
def arrivals (F : Frame) : List (ℕ × UInt8) := F.first :: F.more

/-- The bytes. -/
def bytes (F : Frame) : List UInt8 := received F.arrivals

/-- The time of the first byte. -/
def start (F : Frame) : ℕ := F.first.1

/-- The time of the last byte. -/
def stop (F : Frame) : ℕ := lastArrival F.start F.more

theorem length_bytes (F : Frame) : F.bytes.length = F.more.length + 1 := by
  simp [bytes, arrivals, received]

theorem bytes_ne_nil (F : Frame) : F.bytes ≠ [] := by
  have hlen := F.length_bytes
  intro h
  rw [h, List.length_nil] at hlen
  omega

end Frame

/-- Between two frames there is more than the threshold. -/
def WellTimed (frames : List Frame) : Prop :=
  frames.IsChain fun F G => F.stop + threshold < G.start

/-- All bytes of the frames. -/
def timeline (frames : List Frame) : List (ℕ × UInt8) := frames.flatMap Frame.arrivals

/-- From `now` on the packets that `main` receives are the frames, and nothing after them. -/
def FramedFrom (now : ℕ) (frames : List Frame) : Prop :=
  ∃ N, ∀ n ≥ N, packets 255 1000 n (line now (timeline frames)) = frames.map Frame.bytes

/-- The packets that `main` receives are the frames. -/
def Framed (frames : List Frame) : Prop := FramedFrom 0 frames

/-- The frame fills the buffer, or there is more than the timeout between it and the next one. -/
def Separated (F G : Frame) : Prop := F.bytes.length = 255 ∨ F.stop + 1000000 < G.start

/-! ### One frame -/

/-- Bytes that follow each other with less than the threshold come in time. -/
theorem prompt_of_gaps {a : ℕ × UInt8} {more : List (ℕ × UInt8)}
    (h : (a :: more).IsChain fun a a' => a.1 ≤ a'.1 ∧ a'.1 < a.1 + threshold) :
    Prompt (selectTimeout 1000) a.1 more := by
  induction more generalizing a with
  | nil => trivial
  | cons b more ih =>
      obtain ⟨⟨h1, h2⟩, hrest⟩ := List.isChain_cons_cons.1 h
      have hlimit : threshold ≤ selectTimeout 1000 := by decide
      exact ⟨h1, by omega, ih hrest⟩

/-- Once the first byte is near, the whole frame is stored. -/
theorem receiveLoop_frame (F : Frame) {now room : ℕ} {rest : List (ℕ × UInt8)}
    (h1 : now ≤ F.start) (h2 : F.start ≤ now + selectTimeout 1000) :
    receiveLoop 1000 (F.bytes.length + room) [] (line now (F.arrivals ++ rest)) =
      receiveLoop 1000 room F.bytes (line F.stop rest) := by
  have hprompt : Prompt (selectTimeout 1000) now F.arrivals := ⟨h1, h2, prompt_of_gaps F.gaps⟩
  have hlen : F.bytes.length = F.arrivals.length := List.length_map _
  rw [hlen, receiveLoop_prompt hprompt]
  rfl

/-- Some calls find nothing until the first byte of the frame is near. -/
theorem packets_wait_frame (F : Frame) {now : ℕ} (rest : List (ℕ × UInt8)) (h : now ≤ F.start) :
    ∃ k now', now' ≤ F.start ∧ F.start ≤ now' + selectTimeout 1000 ∧
      ∀ n, packets 255 1000 (n + k) (line now (F.arrivals ++ rest)) =
        packets 255 1000 n (line now' (F.arrivals ++ rest)) :=
  packets_wait (by decide) (by decide) h

/-- **A frame with enough silence behind it is a packet**, and what follows is still to be read. -/
theorem packets_frame (F : Frame) {now : ℕ} {rest : List (ℕ × UInt8)} (h : now ≤ F.start)
    (hstop : ∀ a ∈ rest.head?, F.stop ≤ a.1)
    (hsep : F.bytes.length = 255 ∨ Quiet (F.stop + 1000000) rest) :
    ∃ k now', (∀ a ∈ rest.head?, now' ≤ a.1) ∧
      ∀ n, packets 255 1000 (n + k) (line now (F.arrivals ++ rest)) =
        F.bytes :: packets 255 1000 n (line now' rest) := by
  obtain ⟨k, wake, h1, h2, hk⟩ := packets_wait_frame F rest h
  -- the call that reads the frame ends with it or, if there is room left, a timeout later
  have hcall : ∃ now', (∀ a ∈ rest.head?, now' ≤ a.1) ∧
      serialReceiveModbus 255 1000 (line wake (F.arrivals ++ rest)) =
        ((F.bytes.length : ℤ), F.bytes, line now' rest) := by
    rcases hsep with hfull | hquiet
    · refine ⟨F.stop, hstop, ?_⟩
      have hloop := @receiveLoop_frame F wake 0 rest h1 h2
      rw [hfull, Nat.add_zero] at hloop
      rw [serialReceiveModbus_line, hloop, receiveLoop]
    · have hmost := F.length_le
      have hlen := F.length_bytes
      obtain ⟨room, hroom⟩ : ∃ room, 255 = F.bytes.length + room := ⟨255 - F.bytes.length, by omega⟩
      cases room with
      | zero =>
          refine ⟨F.stop, hstop, ?_⟩
          rw [serialReceiveModbus_line, hroom, receiveLoop_frame F h1 h2, receiveLoop]
      | succ room =>
          refine ⟨F.stop + 1000000, fun a ha => Nat.le_of_lt (hquiet a ha), ?_⟩
          rw [serialReceiveModbus_line, hroom, receiveLoop_frame F h1 h2]
          exact receiveLoop_quiet hquiet
  obtain ⟨now', hafter, hcall⟩ := hcall
  refine ⟨k + 1, now', hafter, fun n => ?_⟩
  rw [← Nat.add_assoc, Nat.add_right_comm, hk, packets_succ_of_pos hcall F.bytes_ne_nil]

/-- **A frame with room behind it and something within the timeout becomes a longer packet.** -/
theorem packets_merged (F : Frame) {now : ℕ} {a : ℕ × UInt8} {rest : List (ℕ × UInt8)}
    (h : now ≤ F.start) (hroom : F.bytes.length ≠ 255) (hnear : a.1 ≤ F.stop + 1000000) :
    ∃ k packet, F.bytes.length < packet.length ∧
      ∀ n, ∃ others, packets 255 1000 (n + k) (line now (F.arrivals ++ a :: rest)) =
        packet :: others := by
  obtain ⟨k, wake, h1, h2, hk⟩ := packets_wait_frame F (a :: rest) h
  have hmost := F.length_le
  have hlen := F.length_bytes
  obtain ⟨room, hroom'⟩ : ∃ room, 255 = F.bytes.length + (room + 1) :=
    ⟨254 - F.bytes.length, by omega⟩
  obtain ⟨more, now', rest', hloop⟩ :=
    @receiveLoop_extends 1000 room (max F.stop a.1) (F.bytes ++ [a.2]) rest
  have hcall : serialReceiveModbus 255 1000 (line wake (F.arrivals ++ a :: rest)) =
      (((F.bytes ++ [a.2] ++ more).length : ℤ), F.bytes ++ [a.2] ++ more, line now' rest') := by
    rw [serialReceiveModbus_line, hroom', receiveLoop_frame F h1 h2]
    exact (receiveLoop_ready hnear).trans hloop
  refine ⟨k + 1, F.bytes ++ [a.2] ++ more, ?_, fun n => ⟨packets 255 1000 n (line now' rest'), ?_⟩⟩
  · simp only [List.length_append, List.length_cons, List.length_nil]
    omega
  · have hne : F.bytes ++ [a.2] ++ more ≠ [] := by simp
    rw [← Nat.add_assoc, Nat.add_right_comm, hk, packets_succ_of_pos hcall hne]

/-! ### All frames -/

theorem timeline_cons (F : Frame) (frames : List Frame) :
    timeline (F :: frames) = F.arrivals ++ timeline frames := List.flatMap_cons

/-- The next byte is the first one of the next frame. -/
theorem head?_timeline (frames : List Frame) :
    (timeline frames).head? = frames.head?.map Frame.first := by
  cases frames with
  | nil => rfl
  | cons F frames => rw [timeline_cons]; rfl

/-- What holds of the start of the next frame holds of the next byte. -/
theorem head?_timeline_of {P : ℕ → Prop} {frames : List Frame}
    (h : ∀ G ∈ frames.head?, P G.start) : ∀ a ∈ (timeline frames).head?, P a.1 := by
  intro a ha
  rw [head?_timeline, Option.mem_def, Option.map_eq_some_iff] at ha
  obtain ⟨G, hG, rfl⟩ := ha
  exact h G hG

theorem framedFrom_nil (now : ℕ) : FramedFrom now [] :=
  ⟨0, fun n _ => packets_nil (by decide) n now⟩

/-- After a frame that is a packet it is the other frames that matter. -/
theorem framedFrom_cons {F : Frame} {frames : List Frame} {now : ℕ} (h : now ≤ F.start)
    (hstop : ∀ G ∈ frames.head?, F.stop ≤ G.start)
    (hsep : ∀ G ∈ frames.head?, Separated F G) :
    ∃ now', (∀ G ∈ frames.head?, now' ≤ G.start) ∧
      (FramedFrom now (F :: frames) ↔ FramedFrom now' frames) := by
  have hquiet : F.bytes.length = 255 ∨ Quiet (F.stop + 1000000) (timeline frames) := by
    by_cases hfull : F.bytes.length = 255
    · exact Or.inl hfull
    · exact Or.inr (head?_timeline_of fun G hG => (hsep G hG).resolve_left hfull)
  obtain ⟨k, now', hafter, hk⟩ := packets_frame F h (head?_timeline_of hstop) hquiet
  refine ⟨now', fun G hG => ?_, ?_⟩
  · refine hafter G.first ?_
    rw [head?_timeline, Option.mem_def, Option.map_eq_some_iff]
    exact ⟨G, hG, rfl⟩
  · rw [← timeline_cons] at hk
    constructor
    · rintro ⟨N, hN⟩
      refine ⟨N, fun n hn => ?_⟩
      have hall := hN (n + k) (by omega)
      rw [hk, List.map_cons] at hall
      exact (List.cons.inj hall).2
    · rintro ⟨N, hN⟩
      refine ⟨N + k, fun n hn => ?_⟩
      obtain ⟨m, rfl⟩ : ∃ m, n = m + k := ⟨n - k, by omega⟩
      rw [hk, List.map_cons, hN m (by omega)]

/-- If the next frame is too near, the first one is not a packet. -/
theorem separated_of_framedFrom {F G : Frame} {frames : List Frame} {now : ℕ} (h : now ≤ F.start)
    (hframed : FramedFrom now (F :: G :: frames)) : Separated F G := by
  rw [Separated, or_iff_not_imp_left]
  intro hroom
  by_contra hnear
  obtain ⟨k, packet, hlong, hk⟩ := @packets_merged F now G.first (G.more ++ timeline frames) h hroom
    (Nat.not_lt.1 hnear)
  obtain ⟨N, hN⟩ := hframed
  obtain ⟨others, hpackets⟩ := hk N
  have hall := hN (N + k) (by omega)
  rw [timeline_cons, timeline_cons] at hall
  have hhead : packet = F.bytes := (List.cons.inj (hpackets.symm.trans hall)).1
  rw [hhead] at hlong
  exact Nat.lt_irrefl _ hlong

/-- The frames from any time on. -/
theorem framedFrom_iff {frames : List Frame} {now : ℕ} (htimed : WellTimed frames)
    (h : ∀ F ∈ frames.head?, now ≤ F.start) :
    FramedFrom now frames ↔ frames.IsChain Separated := by
  -- on the frames, each from the time at which the packet before it was returned
  induction frames generalizing now with
  | nil => exact ⟨fun _ => List.IsChain.nil, fun _ => framedFrom_nil now⟩
  | cons F frames ih =>
      have hF : now ≤ F.start := h F rfl
      have hnext : WellTimed frames := List.IsChain.tail htimed
      have hstop : ∀ G ∈ frames.head?, F.stop ≤ G.start := by
        intro G hG
        have := (List.isChain_cons.1 htimed).1 G hG
        omega
      rw [List.isChain_cons]
      constructor
      · intro hframed
        have hsep : ∀ G ∈ frames.head?, Separated F G := by
          intro G hG
          obtain ⟨frames', rfl⟩ := List.head?_eq_some_iff.1 hG
          exact separated_of_framedFrom hF hframed
        obtain ⟨now', hafter, hiff⟩ := framedFrom_cons hF hstop hsep
        exact ⟨hsep, (ih hnext hafter).1 (hiff.1 hframed)⟩
      · rintro ⟨hsep, hchain⟩
        obtain ⟨now', hafter, hiff⟩ := framedFrom_cons hF hstop hsep
        exact hiff.2 ((ih hnext hafter).2 hchain)

/-- **The packets are the frames exactly when every frame but the last one fills the buffer or has
more than the timeout behind it.** -/
theorem framed_iff {frames : List Frame} (htimed : WellTimed frames) :
    Framed frames ↔ frames.IsChain Separated :=
  framedFrom_iff htimed fun _ _ => Nat.zero_le _

/-- Four bytes, a tenth of a millisecond each. -/
def shortFrame (start : ℕ) : Frame where
  first := (start, 0x01)
  more := [(start + 100, 0x03), (start + 200, 0x80), (start + 300, 0x50)]
  three_le := Nat.le_refl 3
  length_le := Nat.le_add_left 3 251
  gaps := by simp [threshold]

theorem framed_farApart : Framed [shortFrame 0, shortFrame 2000000] :=
  (framed_iff (by simp [WellTimed, shortFrame, Frame.start, Frame.stop, lastArrival, threshold])).2
    (by simp [Separated, shortFrame, Frame.start, Frame.stop, lastArrival])

/-- Two frames with ten milliseconds between them become one packet. -/
theorem not_framed : ¬ ∀ frames, WellTimed frames → Framed frames := by
  intro hall
  have htimed : WellTimed [shortFrame 0, shortFrame 10000] := by
    simp [WellTimed, shortFrame, Frame.start, Frame.stop, lastArrival, threshold]
  have hsep : Separated (shortFrame 0) (shortFrame 10000) :=
    separated_of_framedFrom (Nat.zero_le _) (hall _ htimed)
  simp [Separated, Frame.bytes, received, Frame.arrivals, shortFrame, Frame.start, Frame.stop,
    lastArrival] at hsep

end Ser2mqtt

/-
**Lines from the modem.**

`readline` keeps what has come from the modem in a buffer of 4096 bytes, and gives one line of it
at a time.  A line ends with `\r` or `\n`, and empty lines are left out.  How many bytes a `read`
brings is up to the device: a line can come in many pieces, and many lines in one.

* `Atc.Buffer`, `Atc.readline`, `Atc.readLines` — the buffer, the function, and its calls by
  `readerLoop`;
* `Atc.blocksFit` — no run of line ends with a line behind it fills the buffer;
* `Atc.Buffer.Holds` — what stands in the buffer to be read;
* `Atc.readline_gives` — one call;
* `Atc.readLines_eq` — **the lines are those of the stream, however the stream is read**.
-/
import OpenwrtPackage.Lib.Bytes
import OpenwrtPackage.Lib.Pieces

set_option relaxedAutoImplicit false
set_option autoImplicit false

namespace Atc

open Bytes

/-! ### The function -/

/-- `MAX_AT_RESPONSE`. -/
def maxAtResponse : ℕ := 4096

/-- `\r` or `\n`. -/
def isEol (b : UInt8) : Bool := b == 0x0D || b == 0x0A

/-- `s_ATBuffer`, with the byte behind it, and `s_ATBufferCur`. -/
structure Buffer where
  mem : List UInt8
  cur : ℕ

/-- Some bytes are written at an address. -/
def put (mem : List UInt8) (p : ℕ) (bytes : List UInt8) : List UInt8 :=
  mem.take p ++ bytes ++ mem.drop (p + bytes.length)

/-- The loop that skips over leading newlines. -/
def skipNewlines (b : Buffer) : Buffer :=
  { b with cur := b.cur + ((b.mem.drop b.cur).takeWhile isEol).length }

/-- `findNextEOL(s_ATBufferCur)`. -/
def findNextEOL (b : Buffer) : Option ℕ :=
  if byteAt b.mem b.cur = 0x3E ∧ byteAt b.mem (b.cur + 1) = 0x20 ∧ byteAt b.mem (b.cur + 2) = 0 then
    some (b.cur + 2)
  else
    let eol := b.cur + ((b.mem.drop b.cur).takeWhile fun c => c != 0 && !isEol c).length
    if byteAt b.mem eol = 0 then none else some eol

/-- `strlen(s_ATBufferCur)`. -/
def strlen (b : Buffer) : ℕ := ((b.mem.drop b.cur).takeWhile (· != 0)).length

/-- The end of `readline`: a NUL is put over the end of the line, and the line is returned. -/
def takeLine (b : Buffer) (eol : ℕ) : List UInt8 × Buffer :=
  ((b.mem.drop b.cur).take (eol - b.cur), ⟨put b.mem eol [0], eol + 1⟩)

/-- What `readline` returns, the buffer after it, what it has not taken of the stream and of the
schedule. -/
structure Reading where
  line : Option (List UInt8)
  buffer : Buffer
  stream : List UInt8
  schedule : List ℕ

/-- The loop of `readline`, with `p_read`.  The schedule says how many bytes there are for each
`read` of what is still to come; none at its end. -/
def readLoop : List ℕ → Buffer → ℕ → List UInt8 → Reading
  | [], b, _, stream => ⟨none, b, stream, []⟩
  | n :: schedule, b, pRead, stream =>
      let full := maxAtResponse - pRead = 0
      let b := if full then ⟨put b.mem 0 [0], 0⟩ else b
      let pRead := if full then 0 else pRead
      let bytes := stream.take (min n (maxAtResponse - pRead))
      if bytes = [] then ⟨none, b, stream, schedule⟩
      else
        let stream := stream.drop (min n (maxAtResponse - pRead))
        let mem := put (put b.mem pRead bytes) (pRead + bytes.length) [0]
        let b := skipNewlines { b with mem := mem }
        match findNextEOL b with
        | some eol => ⟨some (takeLine b eol).1, (takeLine b eol).2, stream, schedule⟩
        | none => readLoop schedule b (pRead + bytes.length) stream

/-- `readline`. -/
def readline (b : Buffer) (stream : List UInt8) (schedule : List ℕ) : Reading :=
  if byteAt b.mem b.cur = 0 then readLoop schedule ⟨put b.mem 0 [0], 0⟩ 0 stream
  else
    let b := skipNewlines b
    match findNextEOL b with
    | some eol => ⟨some (takeLine b eol).1, (takeLine b eol).2, stream, schedule⟩
    | none =>
        let moved := (b.mem.drop b.cur).take (strlen b + 1)
        readLoop schedule ⟨put b.mem 0 moved, 0⟩ (strlen b) stream

/-- The calls of `readline` until it returns NULL, and what has not been read of the stream. -/
def readLines : ℕ → Buffer → List UInt8 → List ℕ → List (List UInt8) × List UInt8
  | 0, _, stream, _ => ([], stream)
  | fuel + 1, b, stream, schedule =>
      let r := readline b stream schedule
      match r.line with
      | none => ([], r.stream)
      | some line =>
          let rest := readLines fuel r.buffer r.stream r.schedule
          (line :: rest.1, rest.2)

/-- No run of line ends with a line behind it fills the buffer, when a run has begun that has `k`
bytes, with a line in it or not. -/
def blocksFit : ℕ → Bool → List UInt8 → Bool
  | k, _, [] => k < maxAtResponse
  | k, text, c :: s =>
      k < maxAtResponse && blocksFit (if isEol c && text then 1 else k + 1) (!isEol c) s

/-- The buffer as it is when the program begins: zero, with the byte behind it. -/
def Buffer.empty : Buffer := ⟨List.replicate (maxAtResponse + 1) 0, 0⟩

/-! ### What stands in the buffer -/

/-- These bytes stand at `s_ATBufferCur`, and a NUL behind them. -/
structure Buffer.Holds (b : Buffer) (pending : List UInt8) : Prop where
  nulFree : ∀ c ∈ pending, c ≠ 0
  room : b.mem.length = maxAtResponse + 1
  parts : ∃ front junk, b.mem = front ++ (pending ++ 0 :: junk) ∧ front.length = b.cur

theorem byteAt_front {front tail : List UInt8} (i : ℕ) :
    byteAt (front ++ tail) (front.length + i) = byteAt tail i := by
  rw [byteAt, byteAt, List.getD_eq_getElem?_getD, List.getD_eq_getElem?_getD,
    List.getElem?_append_right (Nat.le_add_right _ _), Nat.add_sub_cancel_left]

theorem put_front {front old tail bytes : List UInt8} (h : bytes.length = old.length) :
    put (front ++ (old ++ tail)) front.length bytes = front ++ (bytes ++ tail) := by
  rw [put, List.take_left, h, ← List.drop_drop, List.drop_left, List.drop_left, List.append_assoc]

theorem length_put {mem bytes : List UInt8} {p : ℕ} (h : p + bytes.length ≤ mem.length) :
    (put mem p bytes).length = mem.length := by
  rw [put, List.length_append, List.length_append, List.length_take, List.length_drop]
  omega

section Holds

variable {b : Buffer} {pending : List UInt8}

/-- The byte at `s_ATBufferCur` is the NUL exactly when nothing is pending. -/
theorem Buffer.Holds.byteAt_cur (h : b.Holds pending) : byteAt b.mem b.cur = 0 ↔ pending = [] := by
  obtain ⟨front, junk, hmem, hfront⟩ := h.parts
  rw [hmem, ← hfront]
  have hfirst := @byteAt_front front (pending ++ 0 :: junk) 0
  rw [Nat.add_zero] at hfirst
  rw [hfirst]
  cases pending with
  | nil => exact iff_of_true rfl rfl
  | cons c pending => exact iff_of_false (h.nulFree c List.mem_cons_self) (List.cons_ne_nil _ _)

/-- The newlines in front are skipped. -/
theorem Buffer.Holds.skipNewlines (h : b.Holds pending) :
    (skipNewlines b).Holds (pending.dropWhile isEol) ∧
      (Atc.skipNewlines b).cur = b.cur + (pending.takeWhile isEol).length := by
  obtain ⟨front, junk, hmem, hfront⟩ := h.parts
  have hdrop : b.mem.drop b.cur = pending ++ 0 :: junk := by rw [hmem, ← hfront, List.drop_left]
  have hnul : (0 :: junk).takeWhile isEol = [] := rfl
  have htake : (b.mem.drop b.cur).takeWhile isEol = pending.takeWhile isEol := by
    rw [hdrop, List.takeWhile_append]
    split
    · next hall =>
        rw [hnul, List.append_nil]
        exact ((List.takeWhile_prefix _).eq_of_length hall).symm
    · rfl
  constructor
  · refine ⟨fun c hc => h.nulFree c ((List.dropWhile_sublist _).subset hc), h.room,
      front ++ pending.takeWhile isEol, junk, ?_, ?_⟩
    · rw [List.append_assoc, ← List.append_assoc (pending.takeWhile isEol),
        List.takeWhile_append_dropWhile]
      exact hmem
    · rw [List.length_append, hfront, ← htake]
      rfl
  · rw [Atc.skipNewlines, htake]

theorem Buffer.Holds.strlen_eq (h : b.Holds pending) : strlen b = pending.length := by
  obtain ⟨front, junk, hmem, hfront⟩ := h.parts
  have hall : ∀ c ∈ pending, (c != 0) = true := fun c hc => bne_iff_ne.2 (h.nulFree c hc)
  rw [strlen, hmem, ← hfront, List.drop_left, List.takeWhile_append_of_pos hall]
  simp

/-- Without an end of line there is none, unless the prompt of a message is pending. -/
theorem Buffer.Holds.findNextEOL_none (h : b.Holds pending) (heol : ∀ c ∈ pending, isEol c = false)
    (hprompt : pending ≠ [0x3E, 0x20]) : findNextEOL b = none := by
  obtain ⟨front, junk, hmem, hfront⟩ := h.parts
  have hall : ∀ c ∈ pending, (c != 0 && !isEol c) = true := fun c hc => by
    rw [heol c hc, bne_iff_ne.2 (h.nulFree c hc)]
    rfl
  have hstop : (b.mem.drop b.cur).takeWhile (fun c => c != 0 && !isEol c) = pending := by
    rw [hmem, ← hfront, List.drop_left, List.takeWhile_append_of_pos hall]
    simp
  have hend : byteAt b.mem (b.cur + pending.length) = 0 := by
    rw [hmem, ← hfront, byteAt_front]
    exact @byteAt_front pending (0 :: junk) 0
  have hnot : ¬ (byteAt b.mem b.cur = 0x3E ∧ byteAt b.mem (b.cur + 1) = 0x20 ∧
      byteAt b.mem (b.cur + 2) = 0) := by
    rintro ⟨h0, h1, h2⟩
    have hfirst := @byteAt_front front (pending ++ 0 :: junk) 0
    rw [Nat.add_zero] at hfirst
    rw [hmem, ← hfront, hfirst] at h0
    rw [hmem, ← hfront, byteAt_front] at h1 h2
    rcases pending with _ | ⟨c, _ | ⟨d, _ | ⟨e, rest⟩⟩⟩
    · exact absurd h0 (by simp [byteAt])
    · exact absurd h1 (by simp [byteAt])
    · simp only [byteAt, List.cons_append, List.getD_cons_zero, List.getD_cons_succ] at h0 h1
      exact hprompt (by rw [h0, h1])
    · simp only [byteAt, List.cons_append, List.getD_cons_zero, List.getD_cons_succ] at h2
      exact h.nulFree e (by simp) h2
  rw [findNextEOL, if_neg hnot]
  simp only [hstop, hend, if_pos]

/-- The first end of line behind a line. -/
theorem Buffer.Holds.findNextEOL_some {body rest : List UInt8} {e : UInt8}
    (h : b.Holds (body ++ e :: rest)) (hbody : ∀ c ∈ body, isEol c = false)
    (he : isEol e = true) : findNextEOL b = some (b.cur + body.length) := by
  obtain ⟨front, junk, hmem, hfront⟩ := h.parts
  have hall : ∀ c ∈ body, (c != 0 && !isEol c) = true := fun c hc => by
    rw [hbody c hc, bne_iff_ne.2 (h.nulFree c (List.mem_append_left _ hc))]
    rfl
  have hne : e ≠ 0 := h.nulFree e (List.mem_append_right _ List.mem_cons_self)
  have hstop : (b.mem.drop b.cur).takeWhile (fun c => c != 0 && !isEol c) = body := by
    rw [hmem, ← hfront, List.drop_left, List.append_assoc, List.takeWhile_append_of_pos hall,
      List.cons_append, List.takeWhile_cons_of_neg (by simp [he]), List.append_nil]
  have hend : byteAt b.mem (b.cur + body.length) = e := by
    rw [hmem, ← hfront, byteAt_front, List.append_assoc]
    exact @byteAt_front body (e :: (rest ++ 0 :: junk)) 0
  have hnot : ¬ (byteAt b.mem b.cur = 0x3E ∧ byteAt b.mem (b.cur + 1) = 0x20 ∧
      byteAt b.mem (b.cur + 2) = 0) := by
    rintro ⟨h0, h1, h2⟩
    have hfirst := @byteAt_front front (body ++ e :: rest ++ 0 :: junk) 0
    rw [Nat.add_zero] at hfirst
    rw [hmem, ← hfront, hfirst] at h0
    rw [hmem, ← hfront, byteAt_front] at h1 h2
    rcases body with _ | ⟨c, _ | ⟨d, _ | ⟨f, body⟩⟩⟩
    · simp only [byteAt, List.nil_append, List.cons_append, List.getD_cons_zero] at h0
      rw [h0] at he
      cases he
    · simp only [byteAt, List.cons_append, List.nil_append, List.getD_cons_succ,
        List.getD_cons_zero] at h1
      rw [h1] at he
      cases he
    · simp only [byteAt, List.cons_append, List.nil_append, List.getD_cons_succ,
        List.getD_cons_zero] at h2
      exact hne h2
    · simp only [byteAt, List.cons_append, List.getD_cons_zero, List.getD_cons_succ] at h2
      exact h.nulFree f (by simp) h2
  rw [findNextEOL, if_neg hnot]
  simp only [hstop, hend, if_neg hne]

/-- The line is returned, and what is behind it is pending. -/
theorem Buffer.Holds.takeLine {body rest : List UInt8} {e : UInt8}
    (h : b.Holds (body ++ e :: rest)) :
    (takeLine b (b.cur + body.length)).1 = body ∧
      (Atc.takeLine b (b.cur + body.length)).2.Holds rest := by
  obtain ⟨front, junk, hmem, hfront⟩ := h.parts
  have hparts : b.mem = front ++ body ++ ([e] ++ (rest ++ 0 :: junk)) := by
    rw [hmem]
    simp
  have hlength : b.cur + body.length = (front ++ body).length := by
    rw [List.length_append, hfront]
  have hput : put b.mem (b.cur + body.length) [0] =
      front ++ body ++ ([0] ++ (rest ++ 0 :: junk)) := by
    rw [hlength, hparts]
    exact put_front rfl
  constructor
  · rw [Atc.takeLine, Nat.add_sub_cancel_left, hmem, ← hfront, List.drop_left, List.append_assoc,
      List.take_left]
  · refine ⟨fun c hc => h.nulFree c (by simp [hc]), ?_, front ++ body ++ [0], junk, ?_, ?_⟩
    · rw [Atc.takeLine, hput, ← h.room, hparts]
      simp
    · rw [Atc.takeLine, hput, List.append_assoc (front ++ body)]
    · rw [Atc.takeLine, List.length_append, ← hlength]
      rfl

/-- What has been read stands behind what was pending. -/
theorem Buffer.Holds.read (h : b.Holds pending) {bytes : List UInt8} (hbytes : ∀ c ∈ bytes, c ≠ 0)
    (hroom : b.cur + pending.length + bytes.length ≤ maxAtResponse) :
    (Buffer.mk (put (put b.mem (b.cur + pending.length) bytes)
      (b.cur + pending.length + bytes.length) [0]) b.cur).Holds (pending ++ bytes) := by
  obtain ⟨front, junk, hmem, hfront⟩ := h.parts
  have hlen := h.room
  rw [hmem, List.length_append, List.length_append, List.length_cons, hfront] at hlen
  -- the bytes and the NUL go over the old NUL and what is behind it
  obtain ⟨old, junk', hjunk, hold⟩ : ∃ old junk', 0 :: junk = old ++ junk' ∧
      old.length = bytes.length + 1 :=
    ⟨(0 :: junk).take (bytes.length + 1), (0 :: junk).drop (bytes.length + 1),
      (List.take_append_drop _ _).symm, by
        rw [List.length_take, List.length_cons]
        omega⟩
  obtain ⟨last, hlast⟩ : ∃ last, old.drop bytes.length = [last] :=
    List.length_eq_one_iff.1 (by rw [List.length_drop, hold, Nat.add_sub_cancel_left])
  have hparts : b.mem = front ++ pending ++ (old.take bytes.length ++ ([last] ++ junk')) := by
    rw [hmem, hjunk, ← List.append_assoc (old.take _), ← hlast, List.take_append_drop,
      List.append_assoc]
  have hp : b.cur + pending.length = (front ++ pending).length := by
    rw [List.length_append, hfront]
  have hfirst : put b.mem (b.cur + pending.length) bytes =
      front ++ pending ++ bytes ++ ([last] ++ junk') := by
    have hold' : bytes.length = (old.take bytes.length).length := by
      rw [List.length_take]
      omega
    rw [hp, hparts, put_front hold', List.append_assoc (front ++ pending)]
  have hsecond : put (put b.mem (b.cur + pending.length) bytes)
      (b.cur + pending.length + bytes.length) [0] =
        front ++ (pending ++ bytes ++ 0 :: junk') := by
    have hp' : b.cur + pending.length + bytes.length = (front ++ pending ++ bytes).length := by
      rw [List.length_append, hp]
    have hput := @put_front (front ++ pending ++ bytes) [last] junk' [0] rfl
    rw [hfirst, hp', hput]
    simp
  refine ⟨?_, ?_, front, junk', hsecond, hfront⟩
  · intro c hc
    rcases List.mem_append.1 hc with hc | hc
    · exact h.nulFree c hc
    · exact hbytes c hc
  · rw [hsecond, ← h.room, hmem, hjunk]
    simp only [List.length_append, List.length_cons, hold]
    omega

/-- A line that has not ended is moved to the front of the buffer. -/
theorem Buffer.Holds.moved (h : b.Holds pending) :
    (Buffer.mk (put b.mem 0 ((b.mem.drop b.cur).take (strlen b + 1))) 0).Holds pending := by
  obtain ⟨front, junk, hmem, hfront⟩ := h.parts
  have hlen := h.room
  have hmoved : (b.mem.drop b.cur).take (strlen b + 1) = pending ++ [0] := by
    rw [h.strlen_eq, hmem, ← hfront, List.drop_left, List.take_append, List.take_of_length_le
      (Nat.le_succ _), Nat.add_sub_cancel_left]
    rfl
  rw [hmem, List.length_append, List.length_append, List.length_cons] at hlen
  refine ⟨h.nulFree, ?_, [], b.mem.drop (pending.length + 1), ?_, rfl⟩
  · rw [hmoved, length_put, h.room]
    rw [h.room, List.length_append, List.length_singleton]
    omega
  · rw [hmoved, put, List.take_zero, List.length_append, List.length_singleton, Nat.zero_add]
    simp

end Holds

/-- Nothing is pending in a buffer that has been emptied. -/
theorem Buffer.holds_emptied {mem : List UInt8} (hmem : mem.length = maxAtResponse + 1) :
    (Buffer.mk (put mem 0 [0]) 0).Holds [] := by
  refine ⟨fun _ h => absurd h List.not_mem_nil, ?_, [], mem.drop 1, rfl, rfl⟩
  rw [length_put, hmem]
  rw [hmem, List.length_singleton]
  omega

/-! ### Runs that fit -/

theorem lt_of_blocksFit {k : ℕ} {text : Bool} {s : List UInt8} (h : blocksFit k text s = true) :
    k < maxAtResponse := by
  cases s with
  | nil => simpa [blocksFit] using h
  | cons c s =>
      rw [blocksFit, Bool.and_eq_true] at h
      simpa using h.1

/-- A bit of the stream leaves a run that is at least as long as the line that has begun in it. -/
theorem blocksFit_append {current : List UInt8} {k : ℕ} (hk : current.length ≤ k)
    {s t : List UInt8} (h : blocksFit k (decide (current ≠ [])) (s ++ t) = true) :
    ∃ k', (Pieces.feed isEol current s).2.length ≤ k' ∧
      blocksFit k' (decide ((Pieces.feed isEol current s).2 ≠ [])) t = true := by
  induction s generalizing current k with
  | nil => exact ⟨k, hk, h⟩
  | cons c s ih =>
      rw [List.cons_append, blocksFit, Bool.and_eq_true] at h
      rw [Pieces.feed]
      cases hc : isEol c with
      | true =>
          rw [if_pos rfl]
          rw [hc] at h
          have hstart := @ih [] _ (Nat.zero_le _) h.2
          split
          · exact hstart
          · exact hstart
      | false =>
          rw [if_neg Bool.false_ne_true]
          rw [hc] at h
          refine @ih (current ++ [c]) (k + 1) ?_ ?_
          · rw [List.length_append, List.length_singleton]
            exact Nat.succ_le_succ hk
          · have hne : decide (current ++ [c] ≠ []) = true := decide_eq_true (by simp)
            rw [hne]
            exact h.2

/-- While no line ends, all bytes are part of the run. -/
theorem blocksFit_extend {current : List UInt8} {k : ℕ} {before body t : List UInt8}
    (hbefore : ∀ c ∈ before, isEol c = true) (hcurrent : before ≠ [] → current = [])
    (hbody : ∀ c ∈ body, isEol c = false)
    (h : blocksFit k (decide (current ≠ [])) (before ++ (body ++ t)) = true) :
    blocksFit (k + before.length + body.length) (decide (current ++ body ≠ [])) t = true := by
  induction before generalizing k with
  | nil =>
      rw [List.nil_append] at h
      rw [List.length_nil, Nat.add_zero]
      clear hcurrent
      induction body generalizing k current with
      | nil =>
          rw [List.append_nil, List.length_nil, Nat.add_zero]
          exact h
      | cons c body ih =>
          obtain ⟨hc, hbody⟩ := List.forall_mem_cons.1 hbody
          rw [List.cons_append, blocksFit, Bool.and_eq_true, hc] at h
          have hne : decide (current ++ [c] ≠ []) = true := decide_eq_true (by simp)
          have hstart : blocksFit (k + 1) (decide (current ++ [c] ≠ [])) (body ++ t) = true := by
            rw [hne]
            exact h.2
          have hnext := ih hbody hstart
          rw [List.append_assoc, List.singleton_append, Nat.add_assoc, Nat.add_comm 1] at hnext
          exact hnext
  | cons e before ih =>
      obtain ⟨he, hbefore⟩ := List.forall_mem_cons.1 hbefore
      obtain rfl := hcurrent (List.cons_ne_nil _ _)
      rw [List.cons_append, blocksFit, Bool.and_eq_true, he] at h
      have hnext := @ih (k + 1) hbefore (fun _ => rfl) h.2
      have hlen : k + (e :: before).length + body.length = k + 1 + before.length + body.length := by
        rw [List.length_cons]
        omega
      rw [hlen]
      exact hnext

/-! ### One call -/

/-- There are as many times to read as there are bytes, and each time there is one at least. -/
def Enough (schedule : List ℕ) (stream : List UInt8) : Prop :=
  (∀ n ∈ schedule, 0 < n) ∧ stream.length ≤ schedule.length

/-- What one call makes of what is pending and of the front of the stream: the first line of it, or
nothing if there is none. -/
inductive Reading.Gives (pending stream : List UInt8) (schedule : List ℕ) : Reading → Prop
  | line {front before line rest stream' : List UInt8} {e : UInt8} {buffer : Buffer}
      {schedule' : List ℕ} (hstream : stream = front ++ stream')
      (hsplit : pending ++ front = before ++ (line ++ e :: rest))
      (hbefore : ∀ c ∈ before, isEol c = true) (hline : ∀ c ∈ line, isEol c = false)
      (hne : line ≠ []) (he : isEol e = true) (hholds : buffer.Holds rest)
      (henough : Enough schedule stream → Enough schedule' stream') :
      Reading.Gives pending stream schedule ⟨some line, buffer, stream', schedule'⟩
  | none {front stream' : List UInt8} {buffer : Buffer} {schedule' : List ℕ}
      (hstream : stream = front ++ stream')
      (hfeed : (Pieces.feed isEol [] (pending ++ front)).1 = [])
      (henough : Enough schedule stream → stream' = []) :
      Reading.Gives pending stream schedule ⟨none, buffer, stream', schedule'⟩

/-- Newlines that are skipped, and bytes that are read, do not matter. -/
theorem Reading.Gives.skip {q s pending stream before bytes : List UInt8}
    {schedule schedule' : List ℕ} {r : Reading} (h : r.Gives q s schedule)
    (hsplit : pending ++ bytes = before ++ q)
    (hbefore : ∀ c ∈ before, isEol c = true) (hstream : stream = bytes ++ s)
    (henough : Enough schedule' stream → Enough schedule s) :
    r.Gives pending stream schedule' := by
  subst hstream
  cases h with
  | @line front before' line rest stream' e buffer schedule'' hstream hsplit' hbefore' hline hne he
      hholds henough' =>
      subst hstream
      refine @Gives.line _ _ _ _ (before ++ before') _ _ _ _ _ _ (List.append_assoc _ _ _).symm
        ?_ ?_ hline hne he hholds fun h => henough' (henough h)
      · rw [← List.append_assoc, hsplit, List.append_assoc, hsplit', List.append_assoc]
      · exact fun c hc => (List.mem_append.1 hc).elim (hbefore c) (hbefore' c)
  | @none front stream' buffer schedule'' hstream hfeed henough' =>
      subst hstream
      refine Gives.none (List.append_assoc _ _ _).symm ?_ fun h => henough' (henough h)
      rw [← List.append_assoc, hsplit, List.append_assoc, Pieces.feed_append,
        Pieces.feed_separators hbefore]
      exact hfeed

/-- What has been read begins with newlines, or goes on with the line that has begun. -/
theorem leading_or_pending {pending : List UInt8} (hopen : ∀ c ∈ pending, isEol c = false)
    (bytes : List UInt8) :
    ∃ before body, bytes = before ++ body ∧ (∀ c ∈ before, isEol c = true) ∧
      (before ≠ [] → pending = []) ∧ (pending ++ bytes).dropWhile isEol = pending ++ body := by
  cases pending with
  | nil =>
      exact ⟨bytes.takeWhile isEol, bytes.dropWhile isEol, List.takeWhile_append_dropWhile.symm,
        fun c hc => List.mem_takeWhile_imp hc, fun _ => rfl, rfl⟩
  | cons c pending =>
      have hc := hopen c List.mem_cons_self
      refine ⟨[], bytes, rfl, fun _ h => absurd h List.not_mem_nil, fun h => absurd rfl h, ?_⟩
      rw [List.cons_append, List.dropWhile_cons_of_neg (by rw [hc]; decide)]

/-- The loop, when the line that has begun and the newlines in front of it are in the buffer. -/
theorem readLoop_gives {schedule : List ℕ} {b : Buffer} {pending stream : List UInt8} {k : ℕ}
    (h : b.Holds pending) (hopen : ∀ c ∈ pending, isEol c = false)
    (hk : b.cur + pending.length ≤ k) (hfit : blocksFit k (decide (pending ≠ [])) stream = true)
    (hnul : ∀ c ∈ stream, c ≠ 0)
    (hprompt : ∀ p ∈ Pieces.pieces isEol (pending ++ stream), ¬ [0x3E, 0x20] <+: p) :
    (readLoop schedule b (b.cur + pending.length) stream).Gives pending stream schedule := by
  induction schedule generalizing b pending stream k with
  | nil =>
      refine Reading.Gives.none (List.nil_append _).symm ?_ fun henough => ?_
      · rw [List.append_nil, Pieces.feed_open [] hopen]
      · exact List.eq_nil_of_length_eq_zero (Nat.le_zero.1 henough.2)
  | cons n schedule ih =>
      have hroom := Nat.lt_of_le_of_lt hk (lt_of_blocksFit hfit)
      have hnot : ¬ maxAtResponse - (b.cur + pending.length) = 0 := by omega
      rw [readLoop]
      simp only [if_neg hnot]
      obtain ⟨m, hm⟩ : ∃ m, m = min n (maxAtResponse - (b.cur + pending.length)) := ⟨_, rfl⟩
      rw [← hm]
      by_cases hbytes : stream.take m = []
      · rw [if_pos hbytes]
        refine Reading.Gives.none (List.nil_append _).symm ?_ fun henough => ?_
        · rw [List.append_nil, Pieces.feed_open [] hopen]
        · have hn := henough.1 n List.mem_cons_self
          rcases List.take_eq_nil_iff.1 hbytes with hzero | hnil
          · omega
          · exact hnil
      · rw [if_neg hbytes]
        have hlen : (stream.take m).length ≤ m := List.length_take_le _ _
        have hstream : stream = stream.take m ++ stream.drop m := (List.take_append_drop _ _).symm
        generalize stream.take m = bytes at hbytes hlen hstream ⊢
        generalize stream.drop m = stream' at hstream ⊢
        subst hstream
        have hnul' := List.forall_mem_append.1 hnul
        have hread := h.read hnul'.1 (by omega)
        obtain ⟨hskip, hcur⟩ := hread.skipNewlines
        generalize skipNewlines (Buffer.mk (put (put b.mem (b.cur + pending.length) bytes)
          (b.cur + pending.length + bytes.length) [0]) b.cur) = b₂ at hskip hcur ⊢
        dsimp only at hcur
        have henough : Enough (n :: schedule) (bytes ++ stream') → Enough schedule stream' := by
          rintro ⟨hpos, hle⟩
          have hone := List.length_pos_iff.2 hbytes
          rw [List.length_append, List.length_cons] at hle
          exact ⟨fun i hi => hpos i (List.mem_cons_of_mem _ hi), by omega⟩
        rcases @Pieces.dropWhile_open_or_closed _ isEol (pending ++ bytes) with
          hnone | ⟨line, e, rest, hq, hline, hne, he⟩
        · -- no line has ended: the next read goes on
          obtain ⟨before, body, hbytes', hbefore, hpending, hq⟩ := leading_or_pending hopen bytes
          have hfeed := Pieces.feed_dropWhile hnone
          rw [hq] at hskip hnone hfeed
          have hnone' : ∀ c ∈ body, isEol c = false := fun c hc =>
            hnone c (List.mem_append_right _ hc)
          have hnext : pending ++ body ≠ [0x3E, 0x20] := by
            intro heq
            obtain ⟨p, hp, hprefix⟩ := @Pieces.exists_piece_of_prefix _ isEol (pending ++ bytes)
              stream' (by rw [hfeed, heq]; exact List.cons_ne_nil _ _)
            rw [hfeed, heq] at hprefix
            rw [List.append_assoc] at hp
            exact hprompt p hp hprefix
          have hsplit := @List.takeWhile_append_dropWhile _ isEol (pending ++ bytes)
          rw [hq] at hsplit
          have hlength := congrArg List.length hsplit
          simp only [List.length_append] at hlength
          have hp : b.cur + pending.length + bytes.length = b₂.cur + (pending ++ body).length := by
            rw [hcur, List.length_append]
            omega
          rw [hskip.findNextEOL_none hnone hnext]
          simp only
          rw [hp]
          have hbefore' := congrArg List.length hbytes'
          rw [List.length_append] at hbefore'
          rw [hbytes', List.append_assoc] at hfit
          have hfit' := blocksFit_extend hbefore hpending hnone' hfit
          refine Reading.Gives.skip (ih hskip hnone ?_ hfit' hnul'.2 ?_) hsplit.symm
            (fun c hc => List.mem_takeWhile_imp hc) rfl henough
          · rw [← hp]
            omega
          · rw [← List.append_assoc] at hprompt
            have hsame : Pieces.feed isEol [] (pending ++ bytes) =
                Pieces.feed isEol [] (pending ++ body) := by
              rw [hfeed, Pieces.feed_open [] hnone]
              rfl
            rw [← Pieces.pieces_congr hsame]
            exact hprompt
        · have hleading : ∀ c ∈ (pending ++ bytes).takeWhile isEol, isEol c = true := fun c hc =>
            List.mem_takeWhile_imp hc
          have hsplit := @List.takeWhile_append_dropWhile _ isEol (pending ++ bytes)
          rw [hq] at hskip hsplit
          obtain ⟨htext, hrest⟩ := hskip.takeLine
          rw [hskip.findNextEOL_some hline he]
          simp only [htext]
          exact Reading.Gives.line rfl hsplit.symm hleading hline hne he hrest henough

/-- What `readline` finds between two calls: what is pending in the buffer and what is still to come
have no NULs, no line with which a message prompts, and no run that fills the buffer. -/
structure Ready (b : Buffer) (pending stream : List UInt8) : Prop where
  holds : b.Holds pending
  nulFree : ∀ c ∈ stream, c ≠ 0
  noPrompt : ∀ p ∈ Pieces.pieces isEol (pending ++ stream), ¬ [0x3E, 0x20] <+: p
  fits : ∃ k, (Pieces.feed isEol [] pending).2.length ≤ k ∧
    blocksFit k (decide ((Pieces.feed isEol [] pending).2 ≠ [])) stream = true

/-- **One call.** -/
theorem readline_gives {b : Buffer} {pending stream : List UInt8} (h : Ready b pending stream)
    (schedule : List ℕ) : (readline b stream schedule).Gives pending stream schedule := by
  obtain ⟨k, hk, hfit⟩ := h.fits
  rw [readline]
  by_cases hempty : pending = []
  · subst hempty
    rw [if_pos (h.holds.byteAt_cur.2 rfl)]
    exact readLoop_gives (Buffer.holds_emptied h.holds.room) (fun _ h => absurd h List.not_mem_nil)
      (Nat.zero_le k) hfit h.nulFree h.noPrompt
  · rw [if_neg (mt h.holds.byteAt_cur.1 hempty)]
    obtain ⟨hskip, -⟩ := h.holds.skipNewlines
    generalize skipNewlines b = b₁ at hskip ⊢
    have hleading : ∀ c ∈ pending.takeWhile isEol, isEol c = true := fun c hc =>
      List.mem_takeWhile_imp hc
    have hsplit := @List.takeWhile_append_dropWhile _ isEol pending
    rcases @Pieces.dropWhile_open_or_closed _ isEol pending with
      hnone | ⟨line, e, rest, hq, hline, hne, he⟩
    · have hfeed := Pieces.feed_dropWhile hnone
      have hopen := hskip.findNextEOL_none hnone fun heq => by
        obtain ⟨p, hp, hprefix⟩ := @Pieces.exists_piece_of_prefix _ isEol pending stream
          (by rw [hfeed, heq]; exact List.cons_ne_nil _ _)
        rw [hfeed, heq] at hprefix
        exact h.noPrompt p hp hprefix
      simp only [hopen, hskip.strlen_eq]
      have hmoved := hskip.moved
      rw [hskip.strlen_eq] at hmoved
      rw [hfeed] at hk hfit
      have hloop := @readLoop_gives schedule _ _ stream k hmoved hnone
        (by rw [Nat.zero_add]; exact hk) hfit h.nulFree (by
          have hsame : Pieces.feed isEol [] pending =
              Pieces.feed isEol [] (pending.dropWhile isEol) := by
            rw [hfeed, Pieces.feed_open [] hnone]
            rfl
          rw [← Pieces.pieces_congr hsame]
          exact h.noPrompt)
      rw [Nat.zero_add] at hloop
      refine hloop.skip ?_ hleading (List.nil_append _).symm id
      rw [List.append_nil, hsplit]
    · rw [hq] at hskip hsplit
      obtain ⟨htext, hrest⟩ := hskip.takeLine
      simp only [hskip.findNextEOL_some hline he, htext]
      refine Reading.Gives.line (List.nil_append _).symm ?_ hleading hline hne he hrest id
      rw [List.append_nil, hsplit]

/-! ### All calls -/

/-- What is pending behind a line is ready for the next call. -/
theorem Ready.next {b b' : Buffer} {pending front before line rest stream' : List UInt8} {e : UInt8}
    (h : Ready b pending (front ++ stream'))
    (hsplit : pending ++ front = before ++ (line ++ e :: rest))
    (hbefore : ∀ c ∈ before, isEol c = true) (hline : ∀ c ∈ line, isEol c = false)
    (hne : line ≠ []) (he : isEol e = true) (hholds : b'.Holds rest) : Ready b' rest stream' := by
  have hfeed := Pieces.feed_piece hbefore hline hne he rest
  rw [← hsplit] at hfeed
  refine ⟨hholds, fun c hc => h.nulFree c (List.mem_append_right _ hc), fun p hp => ?_, ?_⟩
  · refine h.noPrompt p ?_
    rw [← List.append_assoc, Pieces.pieces, Pieces.feed_append, hfeed]
    rw [Pieces.pieces, Pieces.feed_append] at hp
    exact List.mem_cons_of_mem _ hp
  · obtain ⟨k, hk, hfit⟩ := h.fits
    obtain ⟨k', hk', hfit'⟩ := blocksFit_append hk hfit
    have hopen : (Pieces.feed isEol (Pieces.feed isEol [] pending).2 front).2 =
        (Pieces.feed isEol [] rest).2 := by
      have happend := @Pieces.feed_append _ isEol [] pending front
      rw [hfeed] at happend
      exact (congrArg Prod.snd happend).symm
    rw [hopen] at hk' hfit'
    exact ⟨k', hk', hfit'⟩

theorem readLines_of_ready {fuel : ℕ} {b : Buffer} {pending stream : List UInt8}
    (h : Ready b pending stream) (schedule : List ℕ)
    (hfuel : pending.length + stream.length < fuel) :
    ∃ front, stream = front ++ (readLines fuel b stream schedule).2 ∧
      (readLines fuel b stream schedule).1 = (Pieces.feed isEol [] (pending ++ front)).1 ∧
      (Enough schedule stream → (readLines fuel b stream schedule).2 = []) := by
  induction fuel generalizing b pending stream schedule with
  | zero => exact absurd hfuel (Nat.not_lt_zero _)
  | succ fuel ih =>
      have hgives := readline_gives h schedule
      rw [readLines]
      generalize readline b stream schedule = r at hgives ⊢
      cases hgives with
      | @none front stream' buffer schedule' hstream hfeed henough =>
          exact ⟨front, hstream, hfeed.symm, henough⟩
      | @line front before line rest stream' e buffer schedule' hstream hsplit hbefore hline hne he
          hholds henough =>
          subst hstream
          have hlength := congrArg List.length hsplit
          simp only [List.length_append, List.length_cons] at hlength hfuel
          obtain ⟨front', hstream', hlines, hend⟩ := ih
            (h.next hsplit hbefore hline hne he hholds) schedule' (by omega)
          refine ⟨front ++ front', ?_, ?_, fun h => hend (henough h)⟩
          · rw [List.append_assoc]
            exact congrArg (front ++ ·) hstream'
          · have hpiece := Pieces.feed_piece hbefore hline hne he (rest ++ front')
            have hparts : pending ++ (front ++ front') =
                before ++ (line ++ e :: (rest ++ front')) := by
              rw [← List.append_assoc, hsplit, List.append_assoc, List.append_assoc,
                List.cons_append]
            rw [hparts, hpiece, ← hlines]

theorem Buffer.holds_empty : Buffer.empty.Holds [] := by
  refine ⟨fun _ h => absurd h List.not_mem_nil, List.length_replicate, [],
    List.replicate maxAtResponse 0, ?_, rfl⟩
  rw [Buffer.empty, List.replicate_succ]
  rfl

/-- An answer, with its empty lines. -/
def signalAnswer : List UInt8 :=
  [0x0D, 0x0A, 0x2B, 0x43, 0x53, 0x51, 0x3A, 0x20, 0x32, 0x33, 0x2C, 0x39, 0x39, 0x0D, 0x0A, 0x0D,
    0x0A, 0x4F, 0x4B, 0x0D, 0x0A]

end Atc

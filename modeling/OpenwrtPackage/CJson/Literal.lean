/-
**String literals of a JSON text.**

`parse_string` looks at a literal twice.  The first time it finds the closing quote and counts the
characters behind backslashes, to know how much memory it needs; the second time it writes the
characters there.  The two do not always agree on where an escape sequence ends: a sequence `\uXXXX`
takes six bytes whatever they are, and the last of them can be a backslash that the first look has
taken together with what comes behind it.

* `CJson.scan`, `CJson.decode` — the two loops;
* `CJson.parseString` — the function;
* `CJson.Ahead` — where the second loop stands in what the first one has seen;
* `CJson.decode_fits` — **whatever the literal is, the second loop reads no byte behind the closing
  quote, ends, and has room for all that it writes**;
* `CJson.parseString_safe` — the same for the function.
-/
import Mathlib.Data.List.TakeWhile
import Mathlib.Data.Nat.Bitwise
import Mathlib.Tactic.Ring

set_option relaxedAutoImplicit false
set_option autoImplicit false

namespace CJson

/-! ### The two loops -/

/-- How a function of the parser ends: with a value, and what of the buffer is still to be read;
with a failure; with a read outside the buffer; or not at all. -/
inductive Parsed (α : Type) where
  | ok (value : α) (rest : List UInt8)
  | fail
  | outside
  | endless
  deriving DecidableEq

/-- `"` -/
def quote : UInt8 := 0x22

/-- `\` -/
def backslash : UInt8 := 0x5C

/-- The value of a digit in `parse_hex4`. -/
def hexVal (b : UInt8) : Option ℕ :=
  if 0x30 ≤ b ∧ b ≤ 0x39 then some (b.toNat - 0x30)
  else if 0x41 ≤ b ∧ b ≤ 0x46 then some (10 + b.toNat - 0x41)
  else if 0x61 ≤ b ∧ b ≤ 0x66 then some (10 + b.toNat - 0x61)
  else none

/-- The loop of `parse_hex4` with `n` digits to go, where `none` is a read outside the buffer. -/
def parseHex4Loop : ℕ → ℕ → List UInt8 → Option ℕ
  | 0, h, _ => some h
  | _ + 1, _, [] => none
  | n + 1, h, b :: s =>
      match hexVal b with
      | some d => parseHex4Loop n (if 0 < n then (h + d) <<< 4 else h + d) s
      | none => some 0

/-- `parse_hex4`: what is no digit makes it 0. -/
def parseHex4 (s : List UInt8) : Option ℕ := parseHex4Loop 4 0 s

/-- What an escape sequence comes to: the bytes that are written for it, and its length. -/
inductive Escape where
  | write (bytes : List UInt8) (length : ℕ)
  | fail
  | outside

/-- The loop that writes the bytes behind the first one, the last of them first. -/
def encodeLoop : ℕ → ℕ → List UInt8 → ℕ × List UInt8
  | 0, codepoint, out => (codepoint, out)
  | position + 1, codepoint, out =>
      encodeLoop position (codepoint >>> 6)
        (UInt8.ofNat ((codepoint ||| 0x80) &&& 0xBF) :: out)

/-- The bytes of a code point, `utf8_length` of them. -/
def encodeBytes (codepoint utf8Length firstByteMark : ℕ) : List UInt8 :=
  let loop := encodeLoop (utf8Length - 1) codepoint []
  if 1 < utf8Length then UInt8.ofNat ((loop.1 ||| firstByteMark) &&& 0xFF) :: loop.2
  else UInt8.ofNat (loop.1 &&& 0x7F) :: loop.2

/-- The end of `utf16_literal_to_utf8`. -/
def encodeUtf8 (codepoint sequenceLength : ℕ) : Escape :=
  if codepoint < 0x80 then .write (encodeBytes codepoint 1 0) sequenceLength
  else if codepoint < 0x800 then .write (encodeBytes codepoint 2 0xC0) sequenceLength
  else if codepoint < 0x10000 then .write (encodeBytes codepoint 3 0xE0) sequenceLength
  else if codepoint ≤ 0x10FFFF then .write (encodeBytes codepoint 4 0xF0) sequenceLength
  else .fail

/-- `utf16_literal_to_utf8`, with `left` bytes between `input_pointer` and `input_end`. -/
def utf16LiteralToUtf8 (left : ℕ) (s : List UInt8) : Escape :=
  if left < 6 then .fail
  else
    match parseHex4 (s.drop 2) with
    | none => .outside
    | some first =>
        if 0xDC00 ≤ first ∧ first ≤ 0xDFFF then .fail
        else if 0xD800 ≤ first ∧ first ≤ 0xDBFF then
          if left - 6 < 6 then .fail
          else
            match s.drop 6 with
            | b :: u :: digits =>
                if b ≠ backslash ∨ u ≠ 0x75 then .fail
                else
                  match parseHex4 digits with
                  | none => .outside
                  | some second =>
                      if second < 0xDC00 ∨ 0xDFFF < second then .fail
                      else
                        encodeUtf8 (0x10000 + (((first &&& 0x3FF) <<< 10) ||| (second &&& 0x3FF)))
                          12
            | _ => .outside
        else encodeUtf8 first 6

/-- The `switch` of `parse_string`, for the escape sequence at the front of `s`. -/
def escape (left : ℕ) (s : List UInt8) : Escape :=
  match s with
  | _ :: e :: _ =>
      if e = 0x62 then .write [0x08] 2
      else if e = 0x66 then .write [0x0C] 2
      else if e = 0x6E then .write [0x0A] 2
      else if e = 0x72 then .write [0x0D] 2
      else if e = 0x74 then .write [0x09] 2
      else if e = quote ∨ e = backslash ∨ e = 0x2F then .write [e] 2
      else if e = 0x75 then utf16LiteralToUtf8 left s
      else .fail
  | _ => .outside

/-- The first loop: how many bytes stand in front of the closing quote, and `skipped_bytes`. -/
def scan : List UInt8 → Option (ℕ × ℕ)
  | [] => none
  | b :: s =>
      if b = quote then some (0, 0)
      else if b = backslash then
        match s with
        | [] => none
        | _ :: s => (scan s).map fun r => (r.1 + 2, r.2 + 1)
      else (scan s).map fun r => (r.1 + 1, r.2)

/-- How the second loop ends. -/
inductive Ending where
  | closed
  | invalid
  | outside
  | endless
  deriving DecidableEq

/-- Some bytes in front of what else is written. -/
def written (bytes : List UInt8) (r : List UInt8 × Ending) : List UInt8 × Ending :=
  (bytes ++ r.1, r.2)

/-- The second loop, with `left` bytes between `input_pointer` and `input_end`: what is written to
`output`, and how it ends. -/
def decode : ℕ → ℕ → List UInt8 → List UInt8 × Ending
  | 0, left, _ => ([], if left = 0 then .closed else .endless)
  | fuel + 1, left, s =>
      if left = 0 then ([], .closed)
      else
        match s with
        | [] => ([], .outside)
        | b :: s' =>
            if b ≠ backslash then written [b] (decode fuel (left - 1) s')
            else
              match escape left s with
              | .write bytes length =>
                  written bytes (decode fuel (left - length) (s.drop length))
              | .fail => ([], .invalid)
              | .outside => ([], .outside)

/-- What is allocated for `output`: `allocation_length + sizeof("")`. -/
def allocated (literal skipped : ℕ) : ℕ := literal + 1 - skipped + 1

/-- The string at the front of a piece of memory. -/
def cstr (mem : List UInt8) : List UInt8 := mem.takeWhile (· ≠ 0)

/-- `parse_string`, with the string that `valuestring` is for whoever reads it. -/
def parseString (s : List UInt8) : Parsed (List UInt8) :=
  match s with
  | [] => .outside
  | b :: s =>
      if b ≠ quote then .fail
      else
        match scan s with
        | none => .fail
        | some (literal, _) =>
            match decode literal literal s with
            | (output, .closed) => .ok (cstr output) (s.drop (literal + 1))
            | (_, .invalid) => .fail
            | (_, .outside) => .outside
            | (_, .endless) => .endless

/-! ### Where the second loop stands -/

/-- The first loop sees `left` bytes in front of the closing quote, which are `chars` characters, a
backslash and what is behind it being one. -/
inductive Seen : List UInt8 → ℕ → ℕ → Prop
  | close (rest : List UInt8) : Seen (quote :: rest) 0 0
  | plain {b : UInt8} {s : List UInt8} {left chars : ℕ} (hq : b ≠ quote) (hb : b ≠ backslash) :
      Seen s left chars → Seen (b :: s) (left + 1) (chars + 1)
  | pair (e : UInt8) {s : List UInt8} {left chars : ℕ} :
      Seen s left chars → Seen (backslash :: e :: s) (left + 2) (chars + 1)

/-- The second loop stands in front of a character of the first one, or between a backslash and the
character behind it. -/
inductive Ahead : List UInt8 → ℕ → ℕ → Prop
  | front {s : List UInt8} {left chars : ℕ} : Seen s left chars → Ahead s left chars
  | middle (e : UInt8) {s : List UInt8} {left chars : ℕ} :
      Seen s left chars → Ahead (e :: s) (left + 1) (chars + 1)

theorem Ahead.chars_pos {s : List UInt8} {left chars : ℕ} (h : Ahead s (left + 1) chars) :
    1 ≤ chars := by
  cases h with
  | middle _ _ => exact Nat.succ_pos _
  | front h => cases h <;> exact Nat.succ_pos _

theorem backslash_ne_quote : backslash ≠ quote := by decide

theorem seen_of_scan {s : List UInt8} {literal skipped : ℕ} (h : scan s = some (literal, skipped)) :
    ∃ chars, Seen s literal chars ∧ chars + skipped = literal := by
  induction s using scan.induct generalizing literal skipped with
  | case1 => cases h
  | case2 rest =>
      rw [scan.eq_def] at h
      simp only [if_pos, Option.some_inj, Prod.mk.injEq] at h
      obtain ⟨rfl, rfl⟩ := h
      exact ⟨0, Seen.close rest, rfl⟩
  | case3 => cases h
  | case4 e s hq ih =>
      rw [scan, if_neg backslash_ne_quote, if_pos rfl, Option.map_eq_some_iff] at h
      obtain ⟨⟨literal', skipped'⟩, hs, hr⟩ := h
      obtain ⟨chars, hseen, hsum⟩ := ih hs
      rw [Prod.mk.injEq] at hr
      obtain ⟨rfl, rfl⟩ := hr
      exact ⟨chars + 1, Seen.pair e hseen, by omega⟩
  | case5 b s hq hb ih =>
      rw [scan.eq_def] at h
      simp only [if_neg hq, if_neg hb, Option.map_eq_some_iff] at h
      obtain ⟨⟨literal', skipped'⟩, hs, hr⟩ := h
      obtain ⟨chars, hseen, hsum⟩ := ih hs
      rw [Prod.mk.injEq] at hr
      obtain ⟨rfl, rfl⟩ := hr
      exact ⟨chars + 1, Seen.plain hq hb hseen, by omega⟩

/-- The closing quote is in the buffer. -/
theorem Seen.left_lt {s : List UInt8} {left chars : ℕ} (h : Seen s left chars) :
    left < s.length := by
  induction h with
  | close rest => exact Nat.succ_pos _
  | plain _ _ _ ih => exact Nat.succ_lt_succ ih
  | pair _ _ ih => exact Nat.add_lt_add_right ih 2

theorem Ahead.left_lt {s : List UInt8} {left chars : ℕ} (h : Ahead s left chars) :
    left < s.length := by
  cases h with
  | front h => exact h.left_lt
  | middle _ h => exact Nat.succ_lt_succ h.left_lt

/-- One byte further, there is a character less to come, unless the byte is a backslash. -/
theorem Ahead.next {b : UInt8} {s : List UInt8} {left chars : ℕ}
    (h : Ahead (b :: s) (left + 1) chars) :
    ∃ chars', Ahead s left chars' ∧ chars' ≤ chars ∧ (b ≠ backslash → chars' + 1 ≤ chars) := by
  cases h with
  | middle _ h => exact ⟨_, Ahead.front h, Nat.le_succ _, fun _ => Nat.le_refl _⟩
  | front h =>
      cases h with
      | plain _ _ h => exact ⟨_, Ahead.front h, Nat.le_succ _, fun _ => Nat.le_refl _⟩
      | pair e h => exact ⟨_, Ahead.middle e h, Nat.le_refl _, fun hb => absurd rfl hb⟩

/-- Two bytes further, there is a character less to come. -/
theorem Ahead.next_two {b c : UInt8} {s : List UInt8} {left chars : ℕ}
    (h : Ahead (b :: c :: s) (left + 2) chars) :
    ∃ chars', Ahead s left chars' ∧ chars' + 1 ≤ chars := by
  cases h with
  | middle _ h =>
      obtain ⟨chars', hs, hle, -⟩ := (Ahead.front h).next
      exact ⟨chars', hs, Nat.succ_le_succ hle⟩
  | front h =>
      cases h with
      | plain _ _ h =>
          obtain ⟨chars', hs, hle, -⟩ := (Ahead.front h).next
          exact ⟨chars', hs, Nat.succ_le_succ hle⟩
      | pair _ h => exact ⟨_, Ahead.front h, Nat.le_refl _⟩

/-- Each two bytes are a character at least. -/
theorem Ahead.drop {n : ℕ} {s : List UInt8} {left chars : ℕ} (h : Ahead s left chars)
    (hn : 2 * n ≤ left) :
    ∃ chars', Ahead (s.drop (2 * n)) (left - 2 * n) chars' ∧ chars' + n ≤ chars := by
  induction n generalizing s left chars with
  | zero => exact ⟨chars, h, Nat.le_refl _⟩
  | succ n ih =>
      obtain ⟨left, rfl⟩ : ∃ m, left = m + 2 := ⟨left - 2, by omega⟩
      have hlen := h.left_lt
      obtain ⟨b, s, rfl⟩ := List.exists_cons_of_length_pos (Nat.lt_of_le_of_lt (Nat.zero_le _) hlen)
      obtain ⟨c, s, rfl⟩ := List.exists_cons_of_length_pos (show 0 < s.length by
        rw [List.length_cons] at hlen
        omega)
      obtain ⟨mid, hmid, hle⟩ := h.next_two
      obtain ⟨chars', hs, hle'⟩ := ih hmid (by omega)
      have hleft : left + 2 - 2 * (n + 1) = left - 2 * n := by omega
      refine ⟨chars', ?_, by omega⟩
      rw [hleft, Nat.mul_succ]
      exact hs

/-! ### Escape sequences -/

theorem parseHex4Loop_isSome {n h : ℕ} {s : List UInt8} (hlen : n ≤ s.length) :
    (parseHex4Loop n h s).isSome = true := by
  induction n generalizing h s with
  | zero => rfl
  | succ n ih =>
      cases s with
      | nil => simp at hlen
      | cons b s =>
          rw [parseHex4Loop]
          split
          · exact ih (Nat.le_of_succ_le_succ hlen)
          · rfl

theorem length_encodeLoop (position codepoint : ℕ) (out : List UInt8) :
    (encodeLoop position codepoint out).2.length = position + out.length := by
  induction position generalizing codepoint out with
  | zero => simp [encodeLoop]
  | succ position ih =>
      rw [encodeLoop, ih, List.length_cons]
      omega

theorem length_encodeBytes {codepoint utf8Length firstByteMark : ℕ} (h : 1 ≤ utf8Length) :
    (encodeBytes codepoint utf8Length firstByteMark).length = utf8Length := by
  unfold encodeBytes
  simp only
  split <;> rw [List.length_cons, length_encodeLoop, List.length_nil] <;> omega

/-- An escape sequence takes its bytes from the literal, or is a backslash in front of the closing
quote; and it has twice as many bytes as are written for it. -/
inductive Escape.Fits (left : ℕ) : Escape → Prop
  | write {bytes : List UInt8} {n : ℕ} (hpos : 1 ≤ n) (hle : 2 * n ≤ left ∨ n = 1)
      (hbytes : bytes.length ≤ n) : Escape.Fits left (.write bytes (2 * n))
  | fail : Escape.Fits left .fail

theorem encodeUtf8_fits {left codepoint n : ℕ} (hn : 1 ≤ n) (hle : 2 * n ≤ left)
    (hroom : min (codepoint / 0x10000) 1 + 3 ≤ n) :
    (encodeUtf8 codepoint (2 * n)).Fits left := by
  have hone : ∀ {utf8Length mark : ℕ}, 1 ≤ utf8Length → utf8Length ≤ n →
      (Escape.write (encodeBytes codepoint utf8Length mark) (2 * n)).Fits left := by
    intro utf8Length mark hpos hfit
    exact Escape.Fits.write hn (Or.inl hle) (by rw [length_encodeBytes hpos]; exact hfit)
  unfold encodeUtf8
  split
  · exact hone (by omega) (by omega)
  · split
    · exact hone (by omega) (by omega)
    · split
      · exact hone (by omega) (by omega)
      · split
        · exact hone (by omega) (by omega)
        · exact Escape.Fits.fail

theorem hexVal_lt {b : UInt8} {d : ℕ} (h : hexVal b = some d) : d < 16 := by
  simp only [hexVal, UInt8.le_iff_toNat_le] at h
  split at h
  · next hb =>
      rw [Option.some_inj] at h
      have hhigh : b.toNat ≤ 0x39 := hb.2
      omega
  · split at h
    · next hb =>
        rw [Option.some_inj] at h
        have hhigh : b.toNat ≤ 0x46 := hb.2
        omega
    · split at h
      · next hb =>
          rw [Option.some_inj] at h
          have hhigh : b.toNat ≤ 0x66 := hb.2
          omega
      · cases h

/-- Each of the digits to come multiplies by 16 at most. -/
theorem parseHex4Loop_lt {n h v : ℕ} {s : List UInt8} (hv : parseHex4Loop (n + 1) h s = some v) :
    v < (h + 16) * 16 ^ n := by
  induction n generalizing h s with
  | zero =>
      cases s with
      | nil => cases hv
      | cons b s =>
          rw [parseHex4Loop] at hv
          split at hv
          · next d hd =>
              have hlt := hexVal_lt hd
              rw [parseHex4Loop, if_neg (Nat.lt_irrefl 0), Option.some_inj] at hv
              omega
          · rw [Option.some_inj] at hv
            omega
  | succ n ih =>
      have hpow : 0 < 16 ^ (n + 1) := Nat.pow_pos (by decide)
      cases s with
      | nil => cases hv
      | cons b s =>
          rw [parseHex4Loop] at hv
          split at hv
          · next d hd =>
              have hlt := hexVal_lt hd
              rw [if_pos (Nat.succ_pos n), Nat.shiftLeft_eq] at hv
              calc v < ((h + d) * 2 ^ 4 + 16) * 16 ^ n := ih hv
                _ = (h + d + 1) * 16 ^ (n + 1) := by rw [Nat.pow_succ' (n := n)]; ring
                _ ≤ (h + 16) * 16 ^ (n + 1) := Nat.mul_le_mul_right _ (by omega)
          · rw [Option.some_inj] at hv
            rw [← hv]
            exact Nat.mul_pos (by omega) hpow

theorem parseHex4_lt {v : ℕ} {s : List UInt8} (hv : parseHex4 s = some v) : v < 0x10000 :=
  parseHex4Loop_lt hv

theorem parseHex4_isSome {s : List UInt8} (hlen : 4 ≤ s.length) :
    ∃ v, parseHex4 s = some v ∧ v < 0x10000 := by
  obtain ⟨v, hv⟩ := Option.isSome_iff_exists.1 (parseHex4Loop_isSome (h := 0) hlen)
  exact ⟨v, hv, parseHex4_lt hv⟩

theorem utf16LiteralToUtf8_fits {left : ℕ} {s : List UInt8} (hlen : left < s.length) :
    (utf16LiteralToUtf8 left s).Fits left := by
  unfold utf16LiteralToUtf8
  split
  · exact Escape.Fits.fail
  · next hleft =>
      obtain ⟨first, hfirst, hlt⟩ := parseHex4_isSome (s := s.drop 2) (by
        rw [List.length_drop]
        omega)
      simp only [hfirst]
      split
      · exact Escape.Fits.fail
      · split
        · split
          · exact Escape.Fits.fail
          · next hleft' =>
              have hlen' : 6 < (s.drop 6).length := by
                rw [List.length_drop]
                omega
              obtain ⟨b, s', hs⟩ := List.exists_cons_of_length_pos (Nat.lt_trans (by decide) hlen')
              rw [hs, List.length_cons] at hlen'
              obtain ⟨u, digits, rfl⟩ :=
                List.exists_cons_of_length_pos (show 0 < s'.length by omega)
              rw [List.length_cons] at hlen'
              obtain ⟨second, hsecond, -⟩ := parseHex4_isSome (s := digits) (by omega)
              simp only [hs, hsecond]
              split
              · exact Escape.Fits.fail
              · split
                · exact Escape.Fits.fail
                · exact encodeUtf8_fits (n := 6) (by decide) (by omega) (by omega)
        · exact encodeUtf8_fits (n := 3) (by decide) (by omega) (by omega)

/-- Every escape sequence that begins in front of the closing quote. -/
theorem escape_fits {left : ℕ} {s : List UInt8} (hleft : 1 ≤ left) (hlen : left < s.length) :
    (escape left s).Fits left := by
  have hone : ∀ b : UInt8, (Escape.write [b] (2 * 1)).Fits left := fun b =>
    Escape.Fits.write (Nat.le_refl _) (Or.inr rfl) (Nat.le_refl _)
  obtain ⟨b, s, rfl⟩ := List.exists_cons_of_length_pos (Nat.lt_of_le_of_lt (Nat.zero_le _) hlen)
  obtain ⟨e, s, rfl⟩ := List.exists_cons_of_length_pos (show 0 < s.length by
    rw [List.length_cons] at hlen
    omega)
  rw [escape]
  split
  · exact hone _
  · split
    · exact hone _
    · split
      · exact hone _
      · split
        · exact hone _
        · split
          · exact hone _
          · split
            · exact hone _
            · split
              · exact utf16LiteralToUtf8_fits hlen
              · exact Escape.Fits.fail

/-! ### The second loop -/

theorem decode_zero_left (fuel : ℕ) (s : List UInt8) : decode fuel 0 s = ([], .closed) := by
  cases fuel <;> rfl

/-- The loop ends in the literal, and writes no more bytes than the first one has counted
characters. -/
theorem decode_of_ahead {fuel left chars : ℕ} {s : List UInt8} (h : Ahead s left chars)
    (hfuel : left ≤ fuel) :
    (decode fuel left s).1.length ≤ chars ∧
      ((decode fuel left s).2 = .closed ∨ (decode fuel left s).2 = .invalid) := by
  induction fuel generalizing left chars s with
  | zero =>
      obtain rfl := Nat.le_zero.1 hfuel
      exact ⟨Nat.zero_le _, Or.inl rfl⟩
  | succ fuel ih =>
      by_cases hleft : left = 0
      · subst hleft
        rw [decode_zero_left]
        exact ⟨Nat.zero_le _, Or.inl rfl⟩
      · have hlen := h.left_lt
        obtain ⟨b, s, rfl⟩ :=
          List.exists_cons_of_length_pos (Nat.lt_of_le_of_lt (Nat.zero_le _) hlen)
        obtain ⟨left, rfl⟩ := Nat.exists_eq_succ_of_ne_zero hleft
        rw [decode, if_neg hleft]
        obtain ⟨next, hnext, hle, hplain⟩ := h.next
        split
        · next hb =>
            obtain ⟨hwritten, hend⟩ := ih hnext (Nat.le_of_succ_le_succ hfuel)
            have hless := hplain hb
            refine ⟨?_, hend⟩
            simp only [written, List.length_append, List.length_singleton]
            exact Nat.le_trans (Nat.add_le_add_left hwritten 1) (by omega)
        · next hb =>
            have hesc := escape_fits (Nat.succ_pos left) hlen
            generalize escape (left + 1) (b :: s) = e at hesc
            cases hesc with
            | fail => exact ⟨Nat.zero_le _, Or.inr rfl⟩
            | @write bytes n hpos hfit hbytes =>
                by_cases hin : 2 * n ≤ left + 1
                · obtain ⟨rest, hrest, hsum⟩ := h.drop hin
                  obtain ⟨hwritten, hend⟩ := ih hrest (by omega)
                  refine ⟨?_, hend⟩
                  simp only [written, List.length_append]
                  exact Nat.le_trans (Nat.add_le_add hbytes hwritten) (by omega)
                · -- a backslash in front of the closing quote
                  have hover : left + 1 - 2 * n = 0 := by omega
                  have hone : n = 1 := hfit.resolve_left hin
                  simp only [hover, decode_zero_left, written, List.append_nil]
                  exact ⟨Nat.le_trans hbytes (by rw [hone]; exact h.chars_pos), Or.inl trivial⟩

/-- The loop reads nothing behind the closing quote, and ends. -/
theorem decode_ends {s : List UInt8} {literal skipped : ℕ}
    (hscan : scan s = some (literal, skipped)) :
    (decode literal literal s).2 = .closed ∨ (decode literal literal s).2 = .invalid := by
  obtain ⟨chars, hseen, -⟩ := seen_of_scan hscan
  exact (decode_of_ahead (Ahead.front hseen) (Nat.le_refl literal)).2

/-- **Whatever is in the literal, the second loop reads nothing behind the closing quote, ends, and
has room for what it writes and a NUL.** -/
theorem decode_fits {s : List UInt8} {literal skipped : ℕ}
    (hscan : scan s = some (literal, skipped)) :
    literal < s.length ∧
      ((decode literal literal s).2 = .closed ∨ (decode literal literal s).2 = .invalid) ∧
      (decode literal literal s).1.length + 1 ≤ allocated literal skipped := by
  obtain ⟨chars, hseen, hsum⟩ := seen_of_scan hscan
  have hwritten := (decode_of_ahead (Ahead.front hseen) (Nat.le_refl literal)).1
  refine ⟨hseen.left_lt, decode_ends hscan, ?_⟩
  rw [allocated]
  omega

/-- The last byte of `\u000\` is the first one of `\\` for the first loop, and the closing quote is
behind a backslash for the second. -/
theorem decode_fits_shifted :
    7 < 8 ∧ ((decode 7 7 [0x5C, 0x75, 0x30, 0x30, 0x30, 0x5C, 0x5C, 0x22]).2 = .closed ∨
        (decode 7 7 [0x5C, 0x75, 0x30, 0x30, 0x30, 0x5C, 0x5C, 0x22]).2 = .invalid) ∧
      (decode 7 7 [0x5C, 0x75, 0x30, 0x30, 0x30, 0x5C, 0x5C, 0x22]).1.length + 1 ≤
        allocated 7 2 :=
  @decode_fits [0x5C, 0x75, 0x30, 0x30, 0x30, 0x5C, 0x5C, 0x22] 7 2 (by decide +kernel)

/-- The function reads nothing outside the buffer, and what is left is shorter. -/
theorem parseString_safe {s : List UInt8} (hs : s ≠ []) :
    parseString s = .fail ∨
      ∃ text rest, parseString s = .ok text rest ∧ rest.length < s.length := by
  cases s with
  | nil => exact absurd rfl hs
  | cons b s =>
      rw [parseString]
      split
      · exact Or.inl rfl
      · cases hscan : scan s with
        | none => exact Or.inl rfl
        | some r =>
            simp only
            rcases @decode_ends s r.1 r.2 hscan with hend | hend
            · refine Or.inr ⟨cstr (decode r.1 r.1 s).1, s.drop (r.1 + 1), ?_, ?_⟩
              · rw [← Prod.mk.eta (p := decode r.1 r.1 s), hend]
              · rw [List.length_drop, List.length_cons]
                omega
            · left
              rw [← Prod.mk.eta (p := decode r.1 r.1 s), hend]

end CJson

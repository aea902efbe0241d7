/-
**Taking a text out of a string.**

`replaceStr` of `device.c` replaces a text in a string as long as it occurs there, and puts the
string together again in a buffer of 1024 bytes.  `mhidevice_detect` finds the name of a device
with it.

* `QuectelCM.Arrays`, `QuectelCM.put` — the two arrays, and writes that must not leave them;
* `QuectelCM.replaceTurn`, `QuectelCM.replaceStr` — a turn of the loop, and the function;
* `QuectelCM.replaceTurn_spec` — a turn rewrites the first occurrence;
* `QuectelCM.Removed` — what is promised of the string;
* `QuectelCM.replaceStr_removes` — **the function returns, and keeps the promise, when the text is
  replaced by a shorter one**.
-/
import OpenwrtPackage.Lib.Rewrite
import OpenwrtPackage.QuectelCM.Profile

set_option relaxedAutoImplicit false
set_option autoImplicit false

namespace QuectelCM

open Rewrite

/-! ### `device.c` -/

/-- The string at the front of an array. -/
def stringAt (mem : List UInt8) : List UInt8 := mem.takeWhile (· ≠ 0)

/-- Bytes are written into an array from `off` on; `none` is a write that leaves it. -/
def put (mem : List UInt8) (off : ℕ) (bytes : List UInt8) : Option (List UInt8) :=
  if off + bytes.length ≤ mem.length then
    some (mem.take off ++ (bytes ++ mem.drop (off + bytes.length)))
  else none

/-- The array that `str` points to, and `buffer`. -/
structure Arrays where
  str : List UInt8
  buffer : List UInt8

/-- `char buffer[1024]` -/
def replaceBufferSize : ℕ := 1024

/-- The body of the loop, when `orig` occurs at `p`; `none` is a write outside of the arrays. -/
def replaceTurn (orig rep : CStr) (m : Arrays) (p : ℕ) : Option Arrays := do
  -- memcpy(buffer, str, p - str); buffer[p - str] = '\0'
  let buffer ← put m.buffer 0 (m.str.take p)
  let buffer ← put buffer p [0]
  -- sprintf(buffer + strlen(buffer), "%s%s", rep, p + strlen(orig))
  let rest := stringAt (m.str.drop (p + orig.1.length))
  let buffer ← put buffer (stringAt buffer).length (rep.1 ++ (rest ++ [0]))
  -- strcpy(str, buffer)
  let str ← put m.str 0 (stringAt buffer ++ [0])
  some ⟨str, buffer⟩

/-- How a call goes on. -/
inductive ReplaceOutcome where
  | running (m : Arrays)
  | returned (m : Arrays)
  /-- something was written outside of the arrays -/
  | outside

/-- `replaceStr`, at most `n` turns of it. -/
def replaceStr (orig rep : CStr) : ℕ → Arrays → ReplaceOutcome
  | 0, m => .running m
  | n + 1, m =>
      match find orig.1 (stringAt m.str) with
      | none => .returned m
      | some p =>
          match replaceTurn orig rep m p with
          | none => .outside
          | some m => replaceStr orig rep n m

/-! ### One turn -/

theorem stringAt_append {s : List UInt8} (hs : (0 : UInt8) ∉ s) (rest : List UInt8) :
    stringAt (s ++ 0 :: rest) = s := by
  rw [stringAt, List.takeWhile_append_of_pos]
  · rw [List.takeWhile_cons_of_neg (by simp), List.append_nil]
  · intro b hb
    rw [decide_eq_true_iff]
    rintro rfl
    exact hs hb

/-- The string `s` stands at the front of the array. -/
def HasString (mem s : List UInt8) : Prop := (0 : UInt8) ∉ s ∧ ∃ rest, mem = s ++ 0 :: rest

theorem HasString.stringAt {mem s : List UInt8} (h : HasString mem s) : stringAt mem = s := by
  obtain ⟨hs, rest, rfl⟩ := h
  exact stringAt_append hs rest

/-- An array with a NUL has a string. -/
theorem hasString_stringAt {mem : List UInt8} (h : (0 : UInt8) ∈ mem) :
    HasString mem (QuectelCM.stringAt mem) := by
  obtain ⟨s, rest, rfl, hs⟩ := List.eq_append_cons_of_mem h
  rw [stringAt_append hs]
  exact ⟨hs, rest, rfl⟩

/-- A write behind what is there. -/
theorem put_append (front : List UInt8) {mem bytes : List UInt8}
    (h : bytes.length ≤ mem.length) :
    put (front ++ mem) front.length bytes = some (front ++ (bytes ++ mem.drop bytes.length)) := by
  have hroom : front.length + bytes.length ≤ (front ++ mem).length := by
    rw [List.length_append]
    omega
  rw [put, if_pos hroom, List.take_left, ← List.drop_drop, List.drop_left]

/-- A string is written behind what is there, with its NUL. -/
theorem put_string {front s mem : List UInt8} (hfront : (0 : UInt8) ∉ front)
    (hs : (0 : UInt8) ∉ s) (h : s.length < mem.length) :
    ∃ after, put (front ++ mem) front.length (s ++ [0]) = some after ∧
      HasString after (front ++ s) ∧ after.length = (front ++ mem).length := by
  have hfit : (s ++ [(0 : UInt8)]).length ≤ mem.length := by
    rw [List.length_append, List.length_singleton]
    omega
  refine ⟨_, put_append front hfit, ⟨?_, mem.drop (s ++ [(0 : UInt8)]).length, ?_⟩, ?_⟩
  · rw [List.mem_append, not_or]
    exact ⟨hfront, hs⟩
  · simp only [List.append_assoc, List.cons_append, List.nil_append]
  · simp only [List.length_append, List.length_drop] at hfit ⊢
    omega

/-- A call that has its arrays: there is a string in front of a NUL, and it fits the buffer. -/
structure Arrays.Ready (m : Arrays) (s : List UInt8) : Prop where
  str : HasString m.str s
  short : s.length < replaceBufferSize
  buffer : m.buffer.length = replaceBufferSize

/-- A turn rewrites the string at the occurrence. -/
theorem replaceTurn_spec {orig rep : CStr} (hrep : rep.1.length ≤ orig.1.length) {m : Arrays}
    {a b : List UInt8} (h : m.Ready (a ++ (orig.1 ++ b))) :
    ∃ after, replaceTurn orig rep m a.length = some after ∧ after.Ready (a ++ (rep.1 ++ b)) := by
  obtain ⟨hnul, tail, hstr⟩ := h.str
  have hshort := h.short
  have hsize := h.buffer
  simp only [List.mem_append, not_or] at hnul
  simp only [List.length_append] at hshort
  obtain ⟨ha, -, hb⟩ := hnul
  have hrest : (0 : UInt8) ∉ rep.1 ++ b := by
    rw [List.mem_append, not_or]
    exact ⟨rep.2, hb⟩
  have hfront : m.str.take a.length = a := by
    rw [hstr, List.append_assoc, List.take_left]
  have hbehind : stringAt (m.str.drop (a.length + orig.1.length)) = b := by
    rw [hstr, List.append_assoc, ← List.drop_drop, List.drop_left, List.append_assoc,
      List.drop_left, stringAt_append hb]
  -- The front of the string is copied, and ended.
  have hcopy : put m.buffer 0 a = some (a ++ m.buffer.drop a.length) :=
    @put_append [] m.buffer a (by omega)
  obtain ⟨copied, hend, ⟨-, room, rfl⟩, hlength⟩ :=
    @put_string a [] (m.buffer.drop a.length) ha List.not_mem_nil (by
      rw [List.length_nil, List.length_drop]
      omega)
  rw [List.append_nil, List.length_append, List.length_append, List.length_drop] at hlength
  rw [List.append_nil, List.nil_append] at hend
  -- What replaces the text is printed behind it, and then the rest of the string.
  obtain ⟨printed, hprint, hprinted, hlen⟩ := @put_string a (rep.1 ++ b) (0 :: room) ha hrest (by
    rw [List.length_append]
    omega)
  rw [List.length_append] at hlen
  -- The buffer is copied back.
  obtain ⟨str, hback, hcopied, -⟩ :=
    @put_string [] (a ++ (rep.1 ++ b)) m.str List.not_mem_nil hprinted.1 (by
      rw [hstr]
      simp only [List.length_append, List.length_cons]
      omega)
  refine ⟨⟨str, printed⟩, ?_, hcopied, ?_, ?_⟩
  · rw [List.append_assoc] at hprint
    simp only [replaceTurn, hfront, hcopy, Option.bind_eq_bind, Option.bind_some, hbehind]
    simp only [hend, Option.bind_some, stringAt_append ha, hprint, hprinted.stringAt]
    rw [show put m.str 0 (a ++ (rep.1 ++ b) ++ [0]) = some str from hback, Option.bind_some]
  · simp only [List.length_append]
    omega
  · show printed.length = replaceBufferSize
    omega

/-! ### The loop -/

/-- What is promised: the text is gone, whatever is left has come from the string by replacing, it
is not longer, and a string without the text stays as it is; what is only taken out leaves the rest
in order. -/
structure Removed (orig rep s t : List UInt8) : Prop where
  gone : ¬ orig <:+: t
  length : t.length ≤ s.length
  same : ¬ orig <:+: s → t = s
  sublist : rep = [] → t.Sublist s

/-- The function returns, as the string gets shorter with each turn. -/
theorem replaceStr_returns {orig rep : CStr} (hrep : rep.1.length < orig.1.length) {m : Arrays}
    {s : List UInt8} (h : m.Ready s) :
    ∃ n after t, replaceStr orig rep n m = .returned after ∧ after.Ready t ∧
      Rewrites orig.1 rep.1 s t ∧ ¬ orig.1 <:+: t := by
  induction hlen : s.length using Nat.strongRecOn generalizing m s with
  | _ k ih =>
      cases hfind : find orig.1 s with
      | none =>
          refine ⟨1, m, s, ?_, h, .refl, find_eq_none_iff.1 hfind⟩
          rw [replaceStr, h.str.stringAt, hfind]
      | some p =>
          obtain ⟨a, b, rfl, rfl⟩ := find_eq_some hfind
          obtain ⟨next, hturn, hnext⟩ := replaceTurn_spec (Nat.le_of_lt hrep) h
          have hstep : Step orig.1 rep.1 (a ++ (orig.1 ++ b)) (a ++ (rep.1 ++ b)) :=
            ⟨a, b, rfl, rfl⟩
          have hshorter : (a ++ (rep.1 ++ b)).length < k := by
            have hlength := hstep.length
            omega
          obtain ⟨n, after, t, hloop, hready, hrewrites, hgone⟩ := ih _ hshorter hnext rfl
          refine ⟨n + 1, after, t, ?_, hready, .head hstep hrewrites, hgone⟩
          rw [replaceStr, h.str.stringAt, hfind]
          simp only [hturn]
          exact hloop

/-- **`replaceStr` returns without leaving its arrays, and the text is gone**, when every
replacement makes the string shorter. -/
theorem replaceStr_removes {orig rep : CStr} {m : Arrays} (hnul : (0 : UInt8) ∈ m.str)
    (hshort : (stringAt m.str).length < replaceBufferSize)
    (hbuffer : m.buffer.length = replaceBufferSize) (hrep : rep.1.length < orig.1.length) :
    ∃ n after, replaceStr orig rep n m = .returned after ∧
      Removed orig.1 rep.1 (stringAt m.str) (stringAt after.str) := by
  obtain ⟨n, after, t, hloop, hready, hrewrites, hgone⟩ :=
    replaceStr_returns hrep ⟨hasString_stringAt hnul, hshort, hbuffer⟩
  refine ⟨n, after, hloop, ?_⟩
  rw [hready.str.stringAt]
  refine ⟨hgone, hrewrites.length_le (Nat.le_of_lt hrep), hrewrites.eq_of_not_infix, ?_⟩
  intro hnil
  exact hrewrites.sublist (hnil ▸ List.nil_sublist _)

/-- `_IP_HW0` -/
def ipHw0 : CStr := ⟨[0x5F, 0x49, 0x50, 0x5F, 0x48, 0x57, 0x30], by decide⟩

/-- `0306_IP_IP_HW0_HW0`, in which the text occurs again when it has been taken out. -/
def nestedName : Arrays where
  str := [0x30, 0x33, 0x30, 0x36, 0x5F, 0x49, 0x50, 0x5F, 0x49, 0x50, 0x5F, 0x48, 0x57, 0x30,
    0x5F, 0x48, 0x57, 0x30, 0]
  buffer := List.replicate replaceBufferSize 0xFF

theorem replaceStr_nestedName :
    ∃ n after, replaceStr ipHw0 .empty n nestedName = .returned after ∧
      Removed ipHw0.1 CStr.empty.1 (stringAt nestedName.str) (stringAt after.str) :=
  replaceStr_removes (by decide) (by decide) List.length_replicate (by decide)

end QuectelCM

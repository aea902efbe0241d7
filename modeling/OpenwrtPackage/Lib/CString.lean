/-
**Strings in C memory.**

A string in C is what stands in a piece of memory up to the first NUL.  `snprintf` writes into a
piece of memory of a given size, and cuts what does not fit.

* `CString.cstr` — the string at the front of a piece of memory;
* `CString.snprintf` — the memory after `snprintf(mem + off, size, …)`;
* `CString.cstr_snprintf` — **what is printed is read back up to the cut**;
* `CString.snprintf_append` — printing right behind a string.
-/
import Mathlib.Data.List.TakeWhile

set_option relaxedAutoImplicit false
set_option autoImplicit false

namespace CString

/-- The character that ends a string. -/
def nul : Char := '\x00'

/-- The string at the front of a piece of memory. -/
def cstr (mem : List Char) : List Char := mem.takeWhile (· ≠ nul)

/-- The memory after `snprintf(mem + off, size, …)`, where `text` is what the format expands to:
at most `size - 1` characters of it are written, and a NUL behind them. -/
def snprintf (mem : List Char) (off size : ℕ) (text : List Char) : List Char :=
  if size = 0 then mem
  else
    let out := text.take (size - 1)
    mem.take off ++ out ++ nul :: mem.drop (off + out.length + 1)

theorem cstr_append_nul {s : List Char} (hs : nul ∉ s) (rest : List Char) :
    cstr (s ++ nul :: rest) = s := by
  induction s with
  | nil => simp [cstr]
  | cons c s ih =>
      have hc : c ≠ nul := fun h => hs (h ▸ List.mem_cons_self ..)
      have hrest : nul ∉ s := fun h => hs (List.mem_cons_of_mem _ h)
      have hcons := ih hrest
      rw [cstr] at hcons ⊢
      rw [List.cons_append, List.takeWhile_cons_of_pos (by simpa using hc), hcons]

/-- Memory without a NUL is one string. -/
theorem cstr_eq_self {s : List Char} (h : nul ∉ s) : cstr s = s := by
  rw [cstr, List.takeWhile_eq_self_iff]
  intro c hc
  have hne : c ≠ nul := fun heq => h (heq ▸ hc)
  simpa using hne

theorem nul_not_mem_cstr (s : List Char) : nul ∉ cstr s := fun h => by
  simpa using List.mem_takeWhile_imp h

/-- What stands behind a NUL is not part of the string. -/
theorem cstr_append_of_mem {s : List Char} (h : nul ∈ s) (rest : List Char) :
    cstr (s ++ rest) = cstr s := by
  rw [cstr, List.takeWhile_append, if_neg]
  · rfl
  · intro hlen
    have hall := (List.takeWhile_prefix (fun c => decide (c ≠ nul)) (l := s)).eq_of_length hlen
    exact nul_not_mem_cstr s (by rw [cstr, hall]; exact h)

/-- Printing into a buffer reads back as what was printed, cut to the size of the buffer. -/
theorem cstr_snprintf (mem : List Char) {size : ℕ} (hsize : 0 < size) {text : List Char}
    (htext : nul ∉ text) : cstr (snprintf mem 0 size text) = text.take (size - 1) := by
  have hne : ¬ size = 0 := by omega
  have hout : nul ∉ text.take (size - 1) := fun h => htext (List.mem_of_mem_take h)
  simp only [snprintf, if_neg hne, List.take_zero, List.nil_append]
  exact cstr_append_nul hout _

/-- Printing right behind `front` leaves it there, and keeps the memory as long as it was. -/
theorem snprintf_append {front tail text : List Char} {off size : ℕ} (hoff : off = front.length)
    (hfit : text.length < size) (hroom : size ≤ tail.length) :
    ∃ tail', snprintf (front ++ tail) off size text = front ++ text ++ nul :: tail' ∧
      (nul :: tail').length + text.length = tail.length := by
  subst hoff
  have hne : ¬ size = 0 := by omega
  have hall : text.take (size - 1) = text := List.take_of_length_le (by omega)
  refine ⟨(front ++ tail).drop (front.length + text.length + 1), ?_, ?_⟩
  · simp only [snprintf, if_neg hne, hall, List.take_left]
  · rw [List.length_cons, List.length_drop, List.length_append]
    omega

end CString

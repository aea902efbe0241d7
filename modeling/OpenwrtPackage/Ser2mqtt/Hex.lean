/-
**Bytes as hexadecimal digits.**

`ser2mqtt` reports a frame as a string of hexadecimal digits, two for each byte, and takes commands
in the same form.

* `Ser2mqtt.fmt02x` — what `%02x` prints for a byte;
* `Ser2mqtt.hexDigits` — the digits of a sequence of bytes;
* `Ser2mqtt.strtol16` — `strtol` with base 16;
* `Ser2mqtt.hexToBytes` — `hex_to_bytes`;
* `Ser2mqtt.hexToBytes_hexDigits` — **the bytes are read back from their digits**.
-/
import Mathlib.Data.Int.Notation
import OpenwrtPackage.Lib.CString

set_option relaxedAutoImplicit false
set_option autoImplicit false

namespace Ser2mqtt

/-! ### Printing -/

/-- `%02x` for an `unsigned char`. -/
def fmt02x (b : UInt8) : List Char := [Nat.digitChar (b.toNat / 16), Nat.digitChar (b.toNat % 16)]

/-- The digits of the bytes, two for each. -/
def hexDigits (bytes : List UInt8) : List Char := bytes.flatMap fmt02x

theorem length_hexDigits (bytes : List UInt8) : (hexDigits bytes).length = 2 * bytes.length := by
  induction bytes with
  | nil => rfl
  | cons b bytes ih =>
      rw [hexDigits, List.flatMap_cons, List.length_append, ← hexDigits, ih, List.length_cons]
      simp only [fmt02x, List.length_cons, List.length_nil]
      omega

/-! ### Reading -/

/-- `isspace`. -/
def isspace (c : Char) : Bool := c = ' ' || (9 ≤ c.toNat && c.toNat ≤ 13)

/-- The value of a hexadecimal digit. -/
def hexVal (c : Char) : Option ℕ :=
  if '0' ≤ c ∧ c ≤ '9' then some (c.toNat - 48)
  else if 'a' ≤ c ∧ c ≤ 'f' then some (c.toNat - 87)
  else if 'A' ≤ c ∧ c ≤ 'F' then some (c.toNat - 55)
  else none

/-- The value of the digits at the front of a string. -/
def digitsVal (acc : ℕ) : List Char → ℕ
  | [] => acc
  | c :: s =>
      match hexVal c with
      | some d => digitsVal (16 * acc + d) s
      | none => acc

/-- `strtol(s, NULL, 16)`, for a string that is too short to overflow: blanks, a sign, a prefix
`0x`, and digits. -/
def strtol16 (s : List Char) : ℤ :=
  let s := s.dropWhile isspace
  let signed : Bool × List Char := match s with
    | '-' :: s => (true, s)
    | '+' :: s => (false, s)
    | s => (false, s)
  let digits := match signed.2 with
    | '0' :: 'x' :: s => s
    | '0' :: 'X' :: s => s
    | s => s
  if signed.1 then -(digitsVal 0 digits) else digitsVal 0 digits

/-- `hex_to_bytes`: each two characters become a byte, up to `maxBytes` of them; a character left
over at the end is dropped. -/
def hexToBytes : List Char → ℕ → List UInt8
  | c :: d :: rest, maxBytes + 1 =>
      UInt8.ofNat (strtol16 [c, d] % 256).toNat :: hexToBytes rest maxBytes
  | _, _ => []

/-- Two digits are read back, for all pairs of digits. -/
theorem strtol16_digitChar : ∀ high < 16, ∀ low < 16,
    strtol16 [Nat.digitChar high, Nat.digitChar low] = (16 * high + low : ℕ) := by
  decide +kernel

theorem strtol16_fmt02x (b : UInt8) : strtol16 (fmt02x b) = (b.toNat : ℤ) := by
  have hb := b.toNat_lt
  rw [fmt02x, strtol16_digitChar _ (by omega) _ (Nat.mod_lt _ (by decide)), Nat.div_add_mod]

/-- The digits of a sequence of bytes that fits are read back as the sequence. -/
theorem hexToBytes_hexDigits {bytes : List UInt8} {maxBytes : ℕ} (h : bytes.length ≤ maxBytes) :
    hexToBytes (hexDigits bytes) maxBytes = bytes := by
  induction bytes generalizing maxBytes with
  | nil => rfl
  | cons b bytes ih =>
      rw [List.length_cons] at h
      obtain ⟨m, rfl⟩ : ∃ m, maxBytes = m + 1 := ⟨maxBytes - 1, by omega⟩
      have hval := strtol16_fmt02x b
      have hmod : ((b.toNat : ℤ) % 256).toNat = b.toNat := by
        have := b.toNat_lt
        omega
      rw [fmt02x] at hval
      rw [hexDigits, List.flatMap_cons, ← hexDigits, fmt02x, List.cons_append, List.cons_append,
        List.nil_append, hexToBytes, hval, hmod, UInt8.ofNat_toNat, ih (by omega)]

/-- No digit ends a string. -/
theorem nul_not_mem_hexDigits (bytes : List UInt8) : CString.nul ∉ hexDigits bytes := by
  have hdigit : ∀ d < 16, Nat.digitChar d ≠ CString.nul := by decide
  intro h
  obtain ⟨b, -, hb⟩ := List.mem_flatMap.1 h
  have hlt := b.toNat_lt
  simp only [fmt02x, List.mem_cons, List.not_mem_nil, or_false] at hb
  rcases hb with hb | hb
  · exact hdigit _ (by omega) hb.symm
  · exact hdigit _ (Nat.mod_lt _ (by decide)) hb.symm

end Ser2mqtt

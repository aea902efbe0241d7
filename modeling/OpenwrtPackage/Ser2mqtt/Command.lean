/-
**Commands for the serial line.**

A command comes by MQTT as a string of hexadecimal digits and goes to the serial line as bytes.
`hex_to_bytes` takes the characters in pairs and gives each pair to `strtol`, which reads as much of
it as is a number; a character without a partner, and all that does not fit into 256 bytes, is left
out.

* `Ser2mqtt.serialSendHex`, `Ser2mqtt.onMessage` — the two functions, with a line that takes all
  bytes that are written;
* `Ser2mqtt.HexString` — pairs of hexadecimal digits, 256 at most;
* `Ser2mqtt.hexDigits_hexToBytes_iff` — the bytes of such a string, and of no other, have its
  digits;
* `Ser2mqtt.serialSendHex_faithful_iff` — **a command arrives as it is, or is refused, exactly when
  the line is closed or the command is such a string or shorter than a pair**;
* `Ser2mqtt.serialSendHex_odd` — the digit that is lost;
* `Ser2mqtt.mem_onMessage` — what a message can write.
-/
import OpenwrtPackage.Lib.MachineInt
import OpenwrtPackage.Ser2mqtt.Hex

set_option relaxedAutoImplicit false
set_option autoImplicit false

namespace Ser2mqtt

open MachineInt

/-! ### The functions -/

/-- `sizeof(bytes)` in `serial_send_hex`. -/
def sendSize : ℕ := 256

/-- `int len = strlen(hex_string)`. -/
def strlenInt (hexString : List Char) : ℤ := int hexString.length

/-- `hex_to_bytes` with the length that it computes: no character behind it is looked at. -/
def hexStringToBytes (hexString : List Char) (maxBytes : ℕ) : List UInt8 :=
  hexToBytes (hexString.take (strlenInt hexString).toNat) maxBytes

/-- `serial_send_hex`: the result, and what is written to the line. -/
def serialSendHex (opened : Bool) (hexString : List Char) : ℤ × List UInt8 :=
  if opened then
    let bytes := hexStringToBytes hexString sendSize
    if 0 < bytes.length then (bytes.length, bytes) else (-1, [])
  else (-1, [])

/-- `on_message`, where `msgOf` gives the string in the field `msg` of a JSON object: what is
written to the line. -/
def onMessage (msgOf : List Char → Option (List Char)) (opened : Bool)
    (topic payload : List Char) : List UInt8 :=
  if topic = "/data/recv".toList then
    match msgOf payload with
    | some hexString => (serialSendHex opened hexString).2
    | none => []
  else []

/-! ### Digits -/

/-- The codes of the hexadecimal digits. -/
def hexCodes : List ℕ :=
  [48, 49, 50, 51, 52, 53, 54, 55, 56, 57, 97, 98, 99, 100, 101, 102, 65, 66, 67, 68, 69, 70]

theorem toNat_lt_of_hexVal {c : Char} (h : (hexVal c).isSome = true) : c.toNat < 128 := by
  have hle : ∀ {d : Char}, c ≤ d → d.toNat < 128 → c.toNat < 128 := fun hc hd =>
    Nat.lt_of_le_of_lt hc hd
  unfold hexVal at h
  split at h
  · next hc => exact hle hc.2 (by decide)
  · split at h
    · next hc => exact hle hc.2 (by decide)
    · split at h
      · next hc => exact hle hc.2 (by decide)
      · cases h

theorem toNat_mem_hexCodes {c : Char} (h : (hexVal c).isSome = true) : c.toNat ∈ hexCodes := by
  have hcodes : ∀ n < 128, (hexVal (Char.ofNat n)).isSome = true → n ∈ hexCodes := by
    decide +kernel
  have hc := hcodes c.toNat (toNat_lt_of_hexVal h)
  rw [Char.ofNat_toNat] at hc
  exact hc h

/-- A digit is the character that is printed for its value, but for its case. -/
theorem toLower_of_hexVal {c : Char} {d : ℕ} (h : hexVal c = some d) :
    d < 16 ∧ c.toLower = Nat.digitChar d := by
  have hcodes : ∀ n ∈ hexCodes, (hexVal (Char.ofNat n)).getD 16 < 16 ∧
      (Char.ofNat n).toLower = Nat.digitChar ((hexVal (Char.ofNat n)).getD 16) := by
    decide +kernel
  have hc := hcodes c.toNat (toNat_mem_hexCodes (by rw [h]; rfl))
  rw [Char.ofNat_toNat, h] at hc
  exact hc

/-- Nothing else is such a character. -/
theorem hexVal_of_toLower {c : Char} {d : ℕ} (hd : d < 16) (h : c.toLower = Nat.digitChar d) :
    hexVal c = some d := by
  by_cases hupper : 'A'.val ≤ c.val ∧ c.val ≤ 'Z'.val
  · have hcodes : ∀ n < 91, 65 ≤ n → ∀ d < 16, (Char.ofNat n).toLower = Nat.digitChar d →
        hexVal (Char.ofNat n) = some d := by
      decide +kernel
    have hc := hcodes c.toNat (Nat.lt_succ_of_le hupper.2) hupper.1 d hd
    rw [Char.ofNat_toNat] at hc
    exact hc h
  · have hdigits : ∀ d < 16, hexVal (Nat.digitChar d) = some d := by decide +kernel
    have hsame : c.toLower = c := dif_neg hupper
    rw [← hsame, h]
    exact hdigits d hd

/-- `strtol` reads a pair of digits as a whole. -/
theorem strtol16_pair {c e : Char} {a b : ℕ} (hc : hexVal c = some a) (he : hexVal e = some b) :
    strtol16 [c, e] = (16 * a + b : ℕ) := by
  have hcodes : ∀ m ∈ hexCodes, ∀ n ∈ hexCodes, strtol16 [Char.ofNat m, Char.ofNat n] =
      (16 * (hexVal (Char.ofNat m)).getD 0 + (hexVal (Char.ofNat n)).getD 0 : ℕ) := by
    decide +kernel
  have hpair := hcodes c.toNat (toNat_mem_hexCodes (by rw [hc]; rfl)) e.toNat
    (toNat_mem_hexCodes (by rw [he]; rfl))
  rw [Char.ofNat_toNat, Char.ofNat_toNat, hc, he] at hpair
  exact hpair

/-- The digits that are printed are lower-case. -/
theorem map_toLower_hexDigits (bytes : List UInt8) :
    (hexDigits bytes).map Char.toLower = hexDigits bytes := by
  have hlower : ∀ d < 16, (Nat.digitChar d).toLower = Nat.digitChar d := by decide +kernel
  induction bytes with
  | nil => rfl
  | cons b bytes ih =>
      have hb := b.toNat_lt
      rw [hexDigits, List.flatMap_cons, ← hexDigits, List.map_append, ih, fmt02x, List.map_cons,
        List.map_cons, List.map_nil, hlower _ (by omega), hlower _ (Nat.mod_lt _ (by decide))]

/-! ### Pairs -/

/-- The byte of a pair is printed as the pair exactly when the pair consists of digits. -/
theorem fmt02x_pair_iff (c e : Char) :
    fmt02x (UInt8.ofNat (strtol16 [c, e] % 256).toNat) = [c.toLower, e.toLower] ↔
      (hexVal c).isSome = true ∧ (hexVal e).isSome = true := by
  constructor
  · intro h
    have hb := (UInt8.ofNat (strtol16 [c, e] % 256).toNat).toNat_lt
    rw [fmt02x, List.cons.injEq, List.cons.injEq] at h
    obtain ⟨hc, he, -⟩ := h
    rw [hexVal_of_toLower (by omega) hc.symm, hexVal_of_toLower (Nat.mod_lt _ (by decide)) he.symm]
    exact ⟨rfl, rfl⟩
  · rintro ⟨hc, he⟩
    obtain ⟨a, ha⟩ := Option.isSome_iff_exists.1 hc
    obtain ⟨b, hb⟩ := Option.isSome_iff_exists.1 he
    obtain ⟨halt, hac⟩ := toLower_of_hexVal ha
    obtain ⟨hblt, hbe⟩ := toLower_of_hexVal hb
    have hbyte : (UInt8.ofNat (((16 * a + b : ℕ) : ℤ) % 256).toNat).toNat = 16 * a + b := by
      rw [UInt8.toNat_ofNat']
      omega
    have hhigh : (16 * a + b) / 16 = a := by omega
    have hlow : (16 * a + b) % 16 = b := by omega
    rw [strtol16_pair ha hb, fmt02x, hbyte, hhigh, hlow, hac, hbe]

/-- **The bytes of a string of pairs of digits, and of no other, have the digits of the string.** -/
theorem hexDigits_hexToBytes_iff (s : List Char) (maxBytes : ℕ) :
    hexDigits (hexToBytes s maxBytes) = s.map Char.toLower ↔
      (∀ c ∈ s, (hexVal c).isSome = true) ∧ s.length % 2 = 0 ∧ s.length ≤ 2 * maxBytes := by
  induction s, maxBytes using hexToBytes.induct with
  | case1 c e rest maxBytes ih =>
      have hpair := fmt02x_pair_iff c e
      rw [hexToBytes, hexDigits, List.flatMap_cons, ← hexDigits, List.forall_mem_cons,
        List.forall_mem_cons, List.length_cons, List.length_cons]
      constructor
      · intro h
        obtain ⟨hfirst, hrest⟩ := @List.append_inj _ _ [c.toLower, e.toLower] _
          (rest.map Char.toLower) h rfl
        obtain ⟨hc, he⟩ := hpair.1 hfirst
        obtain ⟨hdigits, heven, hlen⟩ := ih.1 hrest
        exact ⟨⟨hc, he, hdigits⟩, by omega, by omega⟩
      · rintro ⟨⟨hc, he, hdigits⟩, heven, hlen⟩
        rw [hpair.2 ⟨hc, he⟩, ih.2 ⟨hdigits, by omega, by omega⟩]
        rfl
  | case2 s maxBytes hnot =>
      -- less than a pair is left, or no room
      cases s with
      | nil => simp [hexToBytes, hexDigits]
      | cons c s =>
          cases s with
          | nil => simp [hexToBytes, hexDigits]
          | cons e rest =>
              cases maxBytes with
              | zero => simp [hexToBytes, hexDigits]
              | succ m => exact (hnot c e rest m rfl rfl).elim

theorem length_hexToBytes (s : List Char) (maxBytes : ℕ) :
    (hexToBytes s maxBytes).length = min (s.length / 2) maxBytes := by
  induction s, maxBytes using hexToBytes.induct with
  | case1 c e rest maxBytes ih =>
      rw [hexToBytes, List.length_cons, ih, List.length_cons, List.length_cons]
      omega
  | case2 s maxBytes hnot =>
      cases s with
      | nil => simp [hexToBytes]
      | cons c s =>
          cases s with
          | nil => simp [hexToBytes]
          | cons e rest =>
              cases maxBytes with
              | zero => simp [hexToBytes]
              | succ m => exact (hnot c e rest m rfl rfl).elim

/-! ### Commands -/

/-- A pair of hexadecimal digits for each byte, and room for all of them. -/
structure HexString (s : List Char) : Prop where
  digits : ∀ c ∈ s, (hexVal c).isSome = true
  pairs : s.length % 2 = 0
  length_le : s.length ≤ 2 * sendSize

/-- The command is refused, with nothing written, or written as it is. -/
def SentFaithfully (opened : Bool) (s : List Char) : Prop :=
  serialSendHex opened s = (-1, []) ∨
    (hexDigits (serialSendHex opened s).2).map Char.toLower = s.map Char.toLower

/-- The digits of what is written are those of the command. -/
theorem hexStringToBytes_iff (s : List Char) :
    (hexDigits (hexStringToBytes s sendSize)).map Char.toLower = s.map Char.toLower ↔
      HexString s := by
  have hread : s.length ≤ 2 * sendSize → hexStringToBytes s sendSize = hexToBytes s sendSize := by
    intro hlen
    rw [sendSize] at hlen
    rw [hexStringToBytes, strlenInt, int_of_lt (by omega) (by omega), Int.toNat_natCast,
      List.take_length]
  rw [map_toLower_hexDigits]
  constructor
  · intro h
    have hlen := congrArg List.length h
    rw [length_hexDigits, hexStringToBytes, length_hexToBytes, List.length_map] at hlen
    rw [hread (by omega)] at h
    obtain ⟨hdigits, hpairs, hroom⟩ := (hexDigits_hexToBytes_iff s sendSize).1 h
    exact ⟨hdigits, hpairs, hroom⟩
  · intro h
    rw [hread h.length_le]
    exact (hexDigits_hexToBytes_iff s sendSize).2 ⟨h.digits, h.pairs, h.length_le⟩

/-- Nothing is written exactly when there is no pair. -/
theorem hexStringToBytes_length_pos (s : List Char) :
    0 < (hexStringToBytes s sendSize).length ↔ 2 ≤ strlenInt s := by
  have hle : strlenInt s ≤ s.length := int_le (Int.natCast_nonneg _)
  rw [hexStringToBytes, length_hexToBytes, List.length_take, sendSize]
  omega

/-- **A command arrives as it is, or is refused, exactly when** the line is closed, or there is no
pair in it, or it consists of pairs of digits for which there is room. -/
theorem serialSendHex_faithful_iff (opened : Bool) (s : List Char) :
    SentFaithfully opened s ↔ opened = false ∨ strlenInt s < 2 ∨ HexString s := by
  cases opened with
  | false => exact iff_of_true (Or.inl rfl) (Or.inl rfl)
  | true =>
      have hpos := hexStringToBytes_length_pos s
      unfold SentFaithfully serialSendHex
      rw [if_pos rfl]
      dsimp only
      by_cases hpair : 2 ≤ strlenInt s
      · rw [if_pos (hpos.2 hpair), hexStringToBytes_iff]
        constructor
        · rintro (h | h)
          · have hresult := congrArg Prod.fst h
            dsimp only at hresult
            omega
          · exact Or.inr (Or.inr h)
        · rintro (h | h | h)
          · cases h
          · omega
          · exact Or.inr h
      · rw [if_neg (mt hpos.1 hpair)]
        exact iff_of_true (Or.inl rfl) (Or.inr (Or.inl (Int.not_le.1 hpair)))

/-- The last digit of a command of an odd length is lost. -/
theorem serialSendHex_odd :
    ¬ ∀ (opened : Bool) (s : List Char), SentFaithfully opened s := by
  intro hall
  have h := hall true ['0', '1', '0']
  revert h
  unfold SentFaithfully
  decide +kernel

/-- What is written to an open line are the bytes of the command, to a closed one nothing. -/
theorem serialSendHex_written (opened : Bool) (s : List Char) :
    (serialSendHex opened s).2 = if opened then hexStringToBytes s sendSize else [] := by
  unfold serialSendHex
  dsimp only
  generalize hexStringToBytes s sendSize = bytes
  cases opened with
  | false => rfl
  | true =>
      rw [if_pos rfl, if_pos rfl]
      by_cases hpos : 0 < bytes.length
      · rw [if_pos hpos]
      · rw [if_neg hpos, List.eq_nil_of_length_eq_zero (Nat.eq_zero_of_not_pos hpos)]

/-- **All that a message writes are the bytes of its command**, and only for `/data/recv` it has
one. -/
theorem mem_onMessage (msgOf : List Char → Option (List Char)) (opened : Bool)
    {topic payload : List Char} {b : UInt8} (hb : b ∈ onMessage msgOf opened topic payload) :
    topic = "/data/recv".toList ∧ opened = true ∧
      ∃ s, msgOf payload = some s ∧ b ∈ hexStringToBytes s sendSize := by
  unfold onMessage at hb
  simp only [serialSendHex_written] at hb
  split at hb
  · next htopic =>
      split at hb
      · next s hmsg =>
          split at hb
          · next hopen => exact ⟨htopic, hopen, s, hmsg, hb⟩
          · cases hb
      · cases hb
  · cases hb

end Ser2mqtt

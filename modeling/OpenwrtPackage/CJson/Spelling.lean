/-
**How a string can be written.**

A character of a string stands in a JSON text as it is, in UTF-8, or behind a backslash: some by a
letter, all by four hexadecimal digits, and one above `U+FFFF` by the two surrogates it has in
UTF-16.  The parser has to give the same bytes for each of these.

* `CJson.Spelled`, `CJson.Body` — the spellings of a character and of a string;
* `CJson.encodeUtf8_toNat` — what the parser makes of a number are the bytes of UTF-8;
* `CJson.parseString_of_body` — **a string is read from each of its spellings**.
-/
import OpenwrtPackage.CJson.Literal
import OpenwrtPackage.Lib.Unicode

set_option relaxedAutoImplicit false
set_option autoImplicit false

namespace CJson

open Unicode

/-! ### Spellings -/

/-- The bytes of a text in UTF-8. -/
def utf8 (text : List Char) : List UInt8 := text.flatMap String.utf8EncodeChar

/-- Four hexadecimal digits, and their number. -/
def Hex4 (n : ℕ) (digits : List UInt8) : Prop :=
  ∃ a b c d, digits.map hexVal = [some a, some b, some c, some d] ∧
    n = 4096 * a + 256 * b + 16 * c + d

/-- The characters that have a letter. -/
def letters : List (UInt8 × Char) :=
  [(quote, '\x22'), (backslash, '\x5c'), (0x2F, '\x2f'), (0x62, '\x08'), (0x66, '\x0c'),
    (0x6E, '\x0a'), (0x72, '\x0d'), (0x74, '\x09')]

/-- What may be written for a character in a string. -/
inductive Spelled : Char → List UInt8 → Prop
  | plain {c : Char} (hlow : 0x20 ≤ c.toNat) (hq : c ≠ '\x22') (hb : c ≠ '\x5c') :
      Spelled c (String.utf8EncodeChar c)
  | letter {e : UInt8} {c : Char} (h : (e, c) ∈ letters) : Spelled c [backslash, e]
  | unit {c : Char} {digits : List UInt8} (h : Hex4 c.toNat digits) :
      Spelled c (backslash :: 0x75 :: digits)
  | pair {c : Char} {high low : List UInt8} (hc : 0x10000 ≤ c.toNat)
      (hhigh : Hex4 (highSurrogate c) high) (hlow : Hex4 (lowSurrogate c) low) :
      Spelled c (backslash :: 0x75 :: (high ++ backslash :: 0x75 :: low))

/-- What may be written for a string between its quotes. -/
inductive Body : List Char → List UInt8 → Prop
  | nil : Body [] []
  | cons {c : Char} {text : List Char} {t body : List UInt8} :
      Spelled c t → Body text body → Body (c :: text) (t ++ body)

/-! ### Digits -/

theorem hexVal_plain {b : UInt8} {d : ℕ} (h : hexVal b = some d) : b ≠ quote ∧ b ≠ backslash := by
  constructor
  · rintro rfl
    cases h
  · rintro rfl
    cases h

/-- What is put together of four digits. -/
theorem parseHex4_append {n : ℕ} {digits : List UInt8} (h : Hex4 n digits) (s : List UInt8) :
    parseHex4 (digits ++ s) = some n := by
  obtain ⟨a, b, c, d, hmap, rfl⟩ := h
  simp only [List.map_eq_cons_iff, List.map_eq_nil_iff] at hmap
  obtain ⟨x, _, rfl, hx, y, _, rfl, hy, z, _, rfl, hz, w, _, rfl, hw, rfl⟩ := hmap
  simp only [parseHex4, List.cons_append, List.nil_append, parseHex4Loop, hx, hy, hz, hw,
    Nat.shiftLeft_eq]
  norm_num
  omega

theorem Hex4.plain {n : ℕ} {digits : List UInt8} (h : Hex4 n digits) :
    digits.length = 4 ∧ ∀ b ∈ digits, b ≠ quote ∧ b ≠ backslash := by
  obtain ⟨a, b, c, d, hmap, -⟩ := h
  constructor
  · simpa using congrArg List.length hmap
  · intro x hx
    have hmem : hexVal x ∈ [some a, some b, some c, some d] := hmap ▸ List.mem_map_of_mem hx
    simp only [List.mem_cons, List.not_mem_nil, or_false] at hmem
    rcases hmem with h | h | h | h <;> exact hexVal_plain h

/-! ### Characters -/

/-- What is written for the number of a character are its bytes. -/
theorem encodeUtf8_toNat (c : Char) (sequenceLength : ℕ) :
    encodeUtf8 c.toNat sequenceLength = .write (String.utf8EncodeChar c) sequenceLength := by
  have hlt := toNat_lt c
  obtain ⟨htwo, hthree, hfour⟩ := leading
  have hbyte : ∀ n < 0x100, n &&& 0xFF = n := fun n hn => by
    rw [show n &&& 0xFF = n % 0x100 from Nat.and_two_pow_sub_one_eq_mod n 8, Nat.mod_eq_of_lt hn]
  have hshift : ∀ n : ℕ, n >>> 6 = n / 0x40 := fun n => Nat.shiftRight_eq_div_pow n 6
  unfold encodeUtf8
  by_cases h1 : c.toNat < 0x80
  · have hascii : c.toNat &&& 0x7F = c.toNat := by
      rw [show c.toNat &&& 0x7F = c.toNat % 0x80 from Nat.and_two_pow_sub_one_eq_mod _ 7,
        Nat.mod_eq_of_lt h1]
    rw [if_pos h1, utf8EncodeChar_one h1]
    simp [encodeBytes, encodeLoop, hascii]
  · rw [if_neg h1]
    by_cases h2 : c.toNat < 0x800
    · have hmark := htwo (c.toNat / 0x40) (by omega)
      rw [if_pos h2, utf8EncodeChar_two (Nat.not_lt.1 h1) h2]
      simp [encodeBytes, encodeLoop, continuation, hshift, hmark,
        hbyte (c.toNat / 0x40 + 0xC0) (by omega)]
    · rw [if_neg h2]
      by_cases h3 : c.toNat < 0x10000
      · have hmark := hthree (c.toNat / 0x1000) (by omega)
        rw [if_pos h3, utf8EncodeChar_three (Nat.not_lt.1 h2) h3]
        simp [encodeBytes, encodeLoop, continuation, hshift, Nat.div_div_eq_div_mul, hmark,
          hbyte (c.toNat / 0x1000 + 0xE0) (by omega)]
      · have hmark := hfour (c.toNat / 0x40000) (by omega)
        rw [if_neg h3, if_pos (by omega), utf8EncodeChar_four (Nat.not_lt.1 h3)]
        simp [encodeBytes, encodeLoop, continuation, hshift, Nat.div_div_eq_div_mul, hmark,
          hbyte (c.toNat / 0x40000 + 0xF0) (by omega)]

/-- No byte of a character that stands as it is means something else in a literal. -/
theorem plain_of_mem_utf8EncodeChar {c : Char} (hq : c ≠ '\x22') (hb : c ≠ '\x5c') {b : UInt8}
    (hmem : b ∈ String.utf8EncodeChar c) : b ≠ quote ∧ b ≠ backslash := by
  by_cases h : c.toNat < 0x80
  · rw [utf8EncodeChar_one h, List.mem_singleton] at hmem
    have hval : b.toNat = c.toNat := by
      rw [hmem, UInt8.toNat_ofNat', Nat.mod_eq_of_lt (by omega)]
    constructor
    · rintro rfl
      exact hq (Char.toNat_inj.1 hval.symm)
    · rintro rfl
      exact hb (Char.toNat_inj.1 hval.symm)
  · have hle := le_of_mem_utf8EncodeChar (Nat.not_lt.1 h) hmem
    constructor
    · rintro rfl
      exact absurd hle (by decide)
    · rintro rfl
      exact absurd hle (by decide)

/-! ### The first loop -/

/-- The first loop over bytes that mean themselves. -/
theorem scan_plain {t : List UInt8} (ht : ∀ b ∈ t, b ≠ quote ∧ b ≠ backslash) {s : List UInt8}
    {literal skipped : ℕ} (hs : scan s = some (literal, skipped)) :
    scan (t ++ s) = some (t.length + literal, skipped) := by
  induction t with
  | nil => rw [List.nil_append, hs, List.length_nil, Nat.zero_add]
  | cons b t ih =>
      obtain ⟨⟨hq, hb⟩, ht⟩ := List.forall_mem_cons.1 ht
      rw [List.cons_append, scan.eq_def]
      simp only [if_neg hq, if_neg hb, ih ht, Option.map_some, List.length_cons]
      rw [Nat.add_right_comm]

theorem scan_escape {e : UInt8} {s : List UInt8} {literal skipped : ℕ}
    (hs : scan s = some (literal, skipped)) :
    scan (backslash :: e :: s) = some (literal + 2, skipped + 1) := by
  rw [scan, if_neg backslash_ne_quote, if_pos rfl, hs]
  rfl

theorem Spelled.scan {c : Char} {t : List UInt8} (h : Spelled c t) {s : List UInt8}
    {literal skipped : ℕ} (hs : CJson.scan s = some (literal, skipped)) :
    ∃ skipped', CJson.scan (t ++ s) = some (t.length + literal, skipped') := by
  cases h with
  | plain hlow hq hb =>
      exact ⟨_, scan_plain (fun b hmem => plain_of_mem_utf8EncodeChar hq hb hmem) hs⟩
  | letter h =>
      refine ⟨skipped + 1, ?_⟩
      rw [List.cons_append, List.cons_append, List.nil_append, scan_escape hs, List.length_cons,
        List.length_singleton, Nat.add_comm]
  | unit h =>
      obtain ⟨hlen, hplain⟩ := h.plain
      refine ⟨skipped + 1, ?_⟩
      rw [List.cons_append, List.cons_append, scan_escape (scan_plain hplain hs), List.length_cons,
        List.length_cons, Nat.add_right_comm]
  | pair hc hhigh hlow =>
      obtain ⟨hlen, hplain⟩ := hhigh.plain
      obtain ⟨hlen', hplain'⟩ := hlow.plain
      refine ⟨skipped + 1 + 1, ?_⟩
      rw [List.cons_append, List.cons_append, List.append_assoc, List.cons_append,
        List.cons_append, scan_escape (scan_plain hplain (scan_escape (scan_plain hplain' hs)))]
      simp only [List.length_cons, List.length_append]
      congr 2
      omega

theorem Body.scan {text : List Char} {body : List UInt8} (h : Body text body)
    (rest : List UInt8) :
    ∃ skipped, CJson.scan (body ++ quote :: rest) = some (body.length, skipped) := by
  induction h with
  | nil =>
      refine ⟨0, ?_⟩
      rw [List.nil_append, CJson.scan.eq_def]
      simp
  | cons hc _ ih =>
      obtain ⟨skipped, hs⟩ := ih
      obtain ⟨skipped', hscan⟩ := hc.scan hs
      exact ⟨skipped', by rw [List.append_assoc, hscan, List.length_append]⟩

/-! ### The second loop -/

theorem decode_plain {t : List UInt8} (ht : ∀ b ∈ t, b ≠ backslash) (fuel left : ℕ)
    (s : List UInt8) :
    decode (t.length + fuel) (t.length + left) (t ++ s) = written t (decode fuel left s) := by
  induction t with
  | nil => simp [written]
  | cons b t ih =>
      obtain ⟨hb, ht⟩ := List.forall_mem_cons.1 ht
      have hfuel : (b :: t).length + fuel = t.length + fuel + 1 := by
        rw [List.length_cons]
        omega
      have hleft : (b :: t).length + left = t.length + left + 1 := by
        rw [List.length_cons]
        omega
      rw [hfuel, hleft, List.cons_append, decode, if_neg (Nat.succ_ne_zero _), if_pos hb,
        Nat.add_sub_cancel, ih ht]
      rfl

/-- An escape sequence that is understood. -/
theorem decode_escape {fuel left : ℕ} {t bytes : List UInt8} {s : List UInt8}
    (hlen : 1 ≤ t.length) (hhead : t.head? = some backslash)
    (hescape : escape (t.length + left) (t ++ s) = .write bytes t.length) :
    decode (fuel + 1) (t.length + left) (t ++ s) = written bytes (decode fuel left s) := by
  cases t with
  | nil => cases hlen
  | cons b t =>
      rw [List.head?_cons, Option.some_inj] at hhead
      subst hhead
      have hleft : ¬ (backslash :: t).length + left = 0 := by
        rw [List.length_cons]
        omega
      rw [List.cons_append, decode, if_neg hleft, if_neg (not_not.2 rfl), ← List.cons_append,
        hescape]
      simp only [List.drop_left, Nat.add_sub_cancel_left]

theorem escape_unit {c : Char} {digits : List UInt8} (h : Hex4 c.toNat digits) (left : ℕ)
    (s : List UInt8) :
    escape ((backslash :: 0x75 :: digits).length + left) (backslash :: 0x75 :: digits ++ s) =
      .write (String.utf8EncodeChar c) (backslash :: 0x75 :: digits).length := by
  obtain ⟨hlen, -⟩ := h.plain
  have hsurrogate := not_surrogate c
  have hlength : (backslash :: (0x75 : UInt8) :: digits).length = 6 := by
    rw [List.length_cons, List.length_cons, hlen]
  have hcall : escape (6 + left) (backslash :: 0x75 :: digits ++ s) =
      utf16LiteralToUtf8 (6 + left) (backslash :: 0x75 :: digits ++ s) := rfl
  rw [hlength, hcall, utf16LiteralToUtf8, if_neg (by omega)]
  have hdrop : (backslash :: (0x75 : UInt8) :: digits ++ s).drop 2 = digits ++ s := rfl
  rw [hdrop, parseHex4_append h]
  simp only
  rw [if_neg (by omega), if_neg (by omega), encodeUtf8_toNat]

theorem escape_pair {c : Char} {high low : List UInt8} (hc : 0x10000 ≤ c.toNat)
    (hhigh : Hex4 (highSurrogate c) high) (hlow : Hex4 (lowSurrogate c) low) (left : ℕ)
    (s : List UInt8) :
    escape ((backslash :: 0x75 :: (high ++ backslash :: 0x75 :: low)).length + left)
        (backslash :: 0x75 :: (high ++ backslash :: 0x75 :: low) ++ s) =
      .write (String.utf8EncodeChar c)
        (backslash :: 0x75 :: (high ++ backslash :: 0x75 :: low)).length := by
  obtain ⟨hlen, -⟩ := hhigh.plain
  obtain ⟨hlen', -⟩ := hlow.plain
  obtain ⟨hfirst, hfirst'⟩ := highSurrogate_range c
  obtain ⟨hsecond, hsecond'⟩ := lowSurrogate_range c
  have hlength :
      (backslash :: (0x75 : UInt8) :: (high ++ backslash :: 0x75 :: low)).length = 12 := by
    simp only [List.length_cons, List.length_append, hlen, hlen']
  have hcall : escape (12 + left) (backslash :: 0x75 :: (high ++ backslash :: 0x75 :: low) ++ s) =
      utf16LiteralToUtf8 (12 + left)
        (backslash :: 0x75 :: (high ++ backslash :: 0x75 :: low) ++ s) := rfl
  have hdrop : (backslash :: (0x75 : UInt8) :: (high ++ backslash :: 0x75 :: low) ++ s).drop 2 =
      high ++ (backslash :: 0x75 :: low ++ s) := by simp
  have hdrop' : (backslash :: (0x75 : UInt8) :: (high ++ backslash :: 0x75 :: low) ++ s).drop 6 =
      backslash :: 0x75 :: (low ++ s) := by
    have hsix : (backslash :: (0x75 : UInt8) :: high).length = 6 := by
      rw [List.length_cons, List.length_cons, hlen]
    rw [← hsix]
    simp
  rw [hlength, hcall, utf16LiteralToUtf8, if_neg (by omega), hdrop, parseHex4_append hhigh]
  simp only
  rw [if_neg (by omega), if_pos ⟨hfirst, hfirst'⟩, if_neg (by omega), hdrop']
  simp only
  rw [if_neg (by simp), parseHex4_append hlow]
  simp only
  rw [if_neg (by omega), surrogates_join hc, encodeUtf8_toNat]

theorem escape_letter {e : UInt8} {c : Char} (h : (e, c) ∈ letters) (left : ℕ) (s : List UInt8) :
    escape left (backslash :: e :: s) = .write (String.utf8EncodeChar c) 2 := by
  simp only [letters, List.mem_cons, Prod.mk.injEq, List.not_mem_nil, or_false] at h
  rcases h with ⟨rfl, rfl⟩ | ⟨rfl, rfl⟩ | ⟨rfl, rfl⟩ | ⟨rfl, rfl⟩ | ⟨rfl, rfl⟩ | ⟨rfl, rfl⟩ |
    ⟨rfl, rfl⟩ | ⟨rfl, rfl⟩ <;> rfl

/-- The bytes of a character are written for each of its spellings. -/
theorem Spelled.decode {c : Char} {t : List UInt8} (h : Spelled c t) {fuel left : ℕ}
    (hfuel : t.length + left ≤ fuel) (s : List UInt8) :
    ∃ fuel', left ≤ fuel' ∧ CJson.decode fuel (t.length + left) (t ++ s) =
      written (String.utf8EncodeChar c) (CJson.decode fuel' left s) := by
  have hone : ∀ {t : List UInt8}, t.length + left ≤ fuel → 1 ≤ t.length →
      t.head? = some backslash →
      escape (t.length + left) (t ++ s) = .write (String.utf8EncodeChar c) t.length →
      ∃ fuel', left ≤ fuel' ∧ CJson.decode fuel (t.length + left) (t ++ s) =
        written (String.utf8EncodeChar c) (CJson.decode fuel' left s) := by
    intro t hfuel hlen hhead hescape
    obtain ⟨fuel, rfl⟩ : ∃ n, fuel = n + 1 := ⟨fuel - 1, by omega⟩
    exact ⟨fuel, by omega, decode_escape hlen hhead hescape⟩
  cases h with
  | plain hlow hq hb =>
      obtain ⟨fuel, rfl⟩ := Nat.exists_eq_add_of_le (Nat.le_trans (Nat.le_add_right _ left) hfuel)
      refine ⟨fuel, Nat.le_of_add_le_add_left hfuel, decode_plain ?_ fuel left s⟩
      exact fun b hmem => (plain_of_mem_utf8EncodeChar hq hb hmem).2
  | letter h => exact hone hfuel (Nat.succ_pos _) rfl (escape_letter h _ _)
  | unit h => exact hone hfuel (Nat.succ_pos _) rfl (escape_unit h left s)
  | pair hc hhigh hlow => exact hone hfuel (Nat.succ_pos _) rfl (escape_pair hc hhigh hlow left s)

theorem Body.decode {text : List Char} {body : List UInt8} (h : Body text body) {fuel : ℕ}
    (hfuel : body.length ≤ fuel) (s : List UInt8) :
    CJson.decode fuel body.length (body ++ s) = (utf8 text, .closed) := by
  induction h generalizing fuel with
  | nil => exact decode_zero_left fuel s
  | @cons c text t body hc _ ih =>
      rw [List.length_append] at hfuel ⊢
      obtain ⟨fuel', hle, hdecode⟩ := hc.decode hfuel (body ++ s)
      rw [List.append_assoc, hdecode, ih hle]
      rfl

/-- **A string is read from each of its spellings**, up to a NUL that it may contain. -/
theorem parseString_of_body {text : List Char} {body : List UInt8} (h : Body text body)
    (rest : List UInt8) :
    parseString (quote :: (body ++ quote :: rest)) = .ok (cstr (utf8 text)) rest := by
  obtain ⟨skipped, hscan⟩ := h.scan rest
  rw [parseString, if_neg (not_not.2 rfl), hscan]
  simp only [h.decode (Nat.le_refl _)]
  rw [← List.drop_drop, List.drop_left]
  rfl

end CJson

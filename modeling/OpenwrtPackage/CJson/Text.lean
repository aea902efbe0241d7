/-
**What the parser understands.**

A JSON text is a value, with blanks between its parts.  The parser is not strict: it takes any
byte up to 32 for a blank, lets a text go on behind its value, and has a digit that is none stand
for a NUL.  But what is a JSON text it understands, as long as it is nested 1000 deep at most and no
number has more than 63 bytes.

* `CJson.Number`, `CJson.Leaf`, `CJson.Text` — the texts of a value, and how deep they are nested;
* `CJson.parseNumber_append` — a number is read as a whole;
* `CJson.parseValue_text` — a value is read from its text;
* `CJson.cJSONParse_text` — **whatever is spelled as a JSON text is what the parser makes of it**.
-/
import OpenwrtPackage.CJson.Parse
import OpenwrtPackage.CJson.Spelling

set_option relaxedAutoImplicit false
set_option autoImplicit false

namespace CJson

/-! ### Texts -/

/-- Blanks, tabs and ends of lines. -/
def Blanks (s : List UInt8) : Prop := ∀ b ∈ s, b = 0x20 ∨ b = 0x09 ∨ b = 0x0A ∨ b = 0x0D

/-- Digits, at least one. -/
def Digits (s : List UInt8) : Prop := s ≠ [] ∧ ∀ b ∈ s, isDigit b = true

/-- Nothing, or a point and digits. -/
def Fraction (s : List UInt8) : Prop := s = [] ∨ ∃ digits, Digits digits ∧ s = 0x2E :: digits

/-- Nothing, or a letter, perhaps a sign, and digits. -/
def Exponent (s : List UInt8) : Prop :=
  s = [] ∨ ∃ e sign digits, (e = 0x65 ∨ e = 0x45) ∧
    (sign = [] ∨ sign = [0x2B] ∨ sign = [0x2D]) ∧ Digits digits ∧ s = e :: (sign ++ digits)

/-- A number of JSON. -/
def Number (s : List UInt8) : Prop :=
  ∃ sign whole fraction exponent, (sign = [] ∨ sign = [0x2D]) ∧ Digits whole ∧
    Fraction fraction ∧ Exponent exponent ∧ s = sign ++ (whole ++ (fraction ++ exponent))

section Texts

variable {ν : Type} (double : List UInt8 → ν)

/-- The texts of the values that have no parts. -/
inductive Leaf : Json ν → List UInt8 → Prop
  | null : Leaf .null [0x6E, 0x75, 0x6C, 0x6C]
  | false : Leaf .false [0x66, 0x61, 0x6C, 0x73, 0x65]
  | true : Leaf .true [0x74, 0x72, 0x75, 0x65]
  | number {t : List UInt8} (h : Number t) (hlen : t.length ≤ 63) : Leaf (.number (double t)) t
  | string {text : List Char} {body : List UInt8} (h : Body text body) :
      Leaf (.string (cstr (utf8 text))) (quote :: (body ++ [quote]))

/-- A value of the kind `T` with blanks around it. -/
def Padded {α : Type} (T : α → List UInt8 → Prop) (value : α) (s : List UInt8) : Prop :=
  ∃ before t after, Blanks before ∧ T value t ∧ Blanks after ∧ s = before ++ (t ++ after)

theorem Padded.of {α : Type} {T : α → List UInt8 → Prop} {value : α} {s : List UInt8}
    (h : T value s) : Padded T value s :=
  ⟨[], s, [], fun _ h => absurd h List.not_mem_nil, h, fun _ h => absurd h List.not_mem_nil,
    (List.append_nil s).symm⟩

/-- Values with commas between them. -/
inductive Elements {α : Type} (T : α → List UInt8 → Prop) : List α → List UInt8 → Prop
  | last {value : α} {s : List UInt8} : Padded T value s → Elements T [value] s
  | cons {value : α} {values : List α} {s t : List UInt8} :
      Padded T value s → Elements T values t → Elements T (value :: values) (s ++ 0x2C :: t)

/-- A name, a colon and a value. -/
def Member {α : Type} (T : α → List UInt8 → Prop) (member : List UInt8 × α) (s : List UInt8) :
    Prop :=
  ∃ before text body after t, Blanks before ∧ Body text body ∧ Blanks after ∧
    member.1 = cstr (utf8 text) ∧ Padded T member.2 t ∧
      s = before ++ (quote :: (body ++ quote :: (after ++ 0x3A :: t)))

/-- Members with commas between them. -/
inductive Members {α : Type} (T : α → List UInt8 → Prop) :
    List (List UInt8 × α) → List UInt8 → Prop
  | last {member : List UInt8 × α} {s : List UInt8} : Member T member s → Members T [member] s
  | cons {member : List UInt8 × α} {members : List (List UInt8 × α)} {s t : List UInt8} :
      Member T member s → Members T members t → Members T (member :: members) (s ++ 0x2C :: t)

/-- The texts of arrays and objects with children of the kind `T`. -/
inductive Nest (T : Json ν → List UInt8 → Prop) : Json ν → List UInt8 → Prop
  | emptyArray {s : List UInt8} (h : Blanks s) : Nest T (.array []) (0x5B :: (s ++ [0x5D]))
  | array {values : List (Json ν)} {s : List UInt8} (h : Elements T values s) :
      Nest T (.array values) (0x5B :: (s ++ [0x5D]))
  | emptyObject {s : List UInt8} (h : Blanks s) : Nest T (.object []) (0x7B :: (s ++ [0x7D]))
  | object {members : List (List UInt8 × Json ν)} {s : List UInt8} (h : Members T members s) :
      Nest T (.object members) (0x7B :: (s ++ [0x7D]))

/-- The texts of a value in which arrays and objects are nested so deep at most. -/
def Text : ℕ → Json ν → List UInt8 → Prop
  | 0, value, s => Leaf double value s
  | depth + 1, value, s => Leaf double value s ∨ Nest (Text depth) value s

end Texts

/-! ### Blanks -/

theorem Blanks.le {s : List UInt8} (h : Blanks s) {b : UInt8} (hb : b ∈ s) : b ≤ 32 := by
  rcases h b hb with rfl | rfl | rfl | rfl <;> decide

/-- Blanks are skipped in front of anything else. -/
theorem skipWhitespace_append {s : List UInt8} (h : Blanks s) {b : UInt8} (hb : 32 < b)
    (rest : List UInt8) : skipWhitespace (s ++ b :: rest) = b :: rest := by
  have hdrop : (s ++ b :: rest).dropWhile (· ≤ 32) = b :: rest := by
    induction s with
    | nil => rw [List.nil_append, List.dropWhile_cons_of_neg (by simpa using hb)]
    | cons c s ih =>
        have hc : c ≤ 32 := h.le List.mem_cons_self
        rw [List.cons_append, List.dropWhile_cons_of_pos (by simpa using hc)]
        exact ih fun d hd => h d (List.mem_cons_of_mem _ hd)
  cases hs : s ++ b :: rest with
  | nil => simp at hs
  | cons c t =>
      rw [hs] at hdrop
      simp only [skipWhitespace, hdrop]

/-! ### Numbers -/

theorem takeWhile_append_stop {p : UInt8 → Bool} {s rest : List UInt8} (hs : ∀ b ∈ s, p b = true)
    (hrest : rest.takeWhile p = []) : (s ++ rest).takeWhile p = s := by
  rw [List.takeWhile_append_of_pos hs, hrest, List.append_nil]

theorem takeWhile_take_stop {p : UInt8 → Bool} {rest : List UInt8} (h : rest.takeWhile p = [])
    (n : ℕ) : (rest.take n).takeWhile p = [] := by
  rcases n with _ | n
  · rfl
  · cases rest with
    | nil => rfl
    | cons b rest =>
        rw [List.takeWhile_cons] at h
        split at h
        · cases h
        · next hb => rw [List.take_succ_cons, List.takeWhile_cons_of_neg hb]

/-- A digit is copied and is no sign. -/
theorem isDigit_spec {b : UInt8} (h : isDigit b = true) :
    isNumberByte b = true ∧ isSign b = false := by
  constructor
  · simp [isNumberByte, h]
  · simp only [isDigit, Bool.and_eq_true, decide_eq_true_eq, UInt8.le_iff_toNat_le] at h
    have h1 : b ≠ 0x2B := by
      rintro rfl
      exact absurd h.1 (by decide)
    have h2 : b ≠ 0x2D := by
      rintro rfl
      exact absurd h.1 (by decide)
    simp [isSign, h1, h2]

theorem takeWhile_isSign_digits {s : List UInt8} (h : Digits s) (rest : List UInt8) :
    (s ++ rest).takeWhile isSign = [] := by
  obtain ⟨hne, hdigits⟩ := h
  cases s with
  | nil => exact absurd rfl hne
  | cons b s =>
      have hsign := (isDigit_spec (hdigits b List.mem_cons_self)).2
      rw [List.cons_append, List.takeWhile_cons_of_neg (by rw [hsign]; decide)]

/-- A sign is taken by itself. -/
theorem take_sign {sign s rest : List UInt8} (hsign : sign = [] ∨ sign = [0x2B] ∨ sign = [0x2D])
    (h : Digits s) : ((sign ++ (s ++ rest)).takeWhile isSign).take 1 = sign := by
  have hnone := takeWhile_isSign_digits h rest
  rcases hsign with rfl | rfl | rfl
  · rw [List.nil_append, hnone]
    rfl
  · rw [List.cons_append, List.nil_append, List.takeWhile_cons_of_pos (by decide), hnone]
    rfl
  · rw [List.cons_append, List.nil_append, List.takeWhile_cons_of_pos (by decide), hnone]
    rfl

theorem Exponent.spec {s : List UInt8} (h : Exponent s) :
    exponentLength s = s.length ∧ fractionLength s = 0 ∧ s.takeWhile isDigit = [] ∧
      ∀ b ∈ s, isNumberByte b = true := by
  rcases h with rfl | ⟨e, sign, digits, he, hsign, hdigits, rfl⟩
  · exact ⟨rfl, rfl, rfl, fun _ h => absurd h List.not_mem_nil⟩
  · have htake : ((sign ++ digits).takeWhile isSign).take 1 = sign := by
      have h := @take_sign sign digits [] hsign hdigits
      rwa [List.append_nil] at h
    have hall : digits.takeWhile isDigit = digits :=
      List.takeWhile_eq_self_iff.2 hdigits.2
    refine ⟨?_, ?_, ?_, ?_⟩
    · simp only [exponentLength, if_pos he, htake, List.drop_left, hall, if_neg hdigits.1,
        List.length_cons, List.length_append]
      omega
    · have hne : e ≠ 0x2E := by rcases he with rfl | rfl <;> decide
      rw [fractionLength, if_neg hne]
    · have hne : isDigit e = false := by rcases he with rfl | rfl <;> rfl
      rw [List.takeWhile_cons_of_neg (by rw [hne]; decide)]
    · intro b hb
      rcases List.mem_cons.1 hb with rfl | hb
      · rcases he with rfl | rfl <;> rfl
      · rcases List.mem_append.1 hb with hb | hb
        · rcases hsign with rfl | rfl | rfl
          · cases hb
          · rw [List.mem_singleton.1 hb]
            rfl
          · rw [List.mem_singleton.1 hb]
            rfl
        · exact (isDigit_spec (hdigits.2 b hb)).1

theorem Fraction.spec {s : List UInt8} (h : Fraction s) {rest : List UInt8}
    (hpoint : fractionLength rest = 0) (hrest : rest.takeWhile isDigit = []) :
    fractionLength (s ++ rest) = s.length ∧ (s ++ rest).takeWhile isDigit = [] ∧
      ∀ b ∈ s, isNumberByte b = true := by
  rcases h with rfl | ⟨digits, hdigits, rfl⟩
  · exact ⟨hpoint, hrest, fun _ h => absurd h List.not_mem_nil⟩
  · refine ⟨?_, ?_, ?_⟩
    · rw [List.cons_append, fractionLength, if_pos rfl, takeWhile_append_stop hdigits.2 hrest,
        List.length_cons, Nat.add_comm]
    · rw [List.cons_append, List.takeWhile_cons_of_neg (by decide)]
    · intro b hb
      rcases List.mem_cons.1 hb with rfl | hb
      · rfl
      · exact (isDigit_spec (hdigits.2 b hb)).1

/-- `strtod` takes a number as a whole. -/
theorem Number.spec {s : List UInt8} (h : Number s) :
    strtodLength s = s.length ∧ ∀ b ∈ s, isNumberByte b = true := by
  obtain ⟨sign, whole, fraction, exponent, hsign, hwhole, hfraction, hexponent, rfl⟩ := h
  obtain ⟨hlen, hpoint, hdigits, hbytes⟩ := hexponent.spec
  obtain ⟨hlen', hdigits', hbytes'⟩ := hfraction.spec hpoint hdigits
  have hsign' : sign = [] ∨ sign = [0x2B] ∨ sign = [0x2D] := by
    rcases hsign with h | h
    · exact Or.inl h
    · exact Or.inr (Or.inr h)
  have hwholelen : 0 < whole.length := List.length_pos_iff.2 hwhole.1
  constructor
  · simp only [strtodLength, take_sign hsign' hwhole, List.drop_left,
      takeWhile_append_stop hwhole.2 hdigits', ← List.drop_drop, hlen', hlen, List.length_append]
    rw [if_neg (by omega)]
    omega
  · intro b hb
    rcases List.mem_append.1 hb with hb | hb
    · rcases hsign with rfl | rfl
      · cases hb
      · rw [List.mem_singleton.1 hb]
        rfl
    · rcases List.mem_append.1 hb with hb | hb
      · exact (isDigit_spec (hwhole.2 b hb)).1
      · rcases List.mem_append.1 hb with hb | hb
        · exact hbytes' b hb
        · exact hbytes b hb

/-- A number is read as a whole when something else comes behind it. -/
theorem parseNumber_append {ν : Type} (double : List UInt8 → ν) {s rest : List UInt8}
    (h : Number s) (hlen : s.length ≤ 63) (hrest : rest.takeWhile isNumberByte = []) :
    parseNumber double (s ++ rest) = .ok (.number (double s)) rest := by
  obtain ⟨hlength, hbytes⟩ := h.spec
  have hcopy : ((s ++ rest).take 63).takeWhile isNumberByte = s := by
    rw [List.take_append, List.take_of_length_le hlen]
    exact takeWhile_append_stop hbytes (takeWhile_take_stop hrest _)
  have hne : ¬ s.length = 0 := by
    obtain ⟨sign, whole, fraction, exponent, -, hwhole, -, -, rfl⟩ := h
    have hpos := List.length_pos_iff.2 hwhole.1
    simp only [List.length_append]
    omega
  simp only [parseNumber, hcopy, hlength, if_neg hne, List.take_length, List.drop_left]

/-! ### Arrays and objects -/

/-- What comes behind a value: blanks, and something that is not part of a number. -/
theorem takeWhile_isNumberByte_blanks {s : List UInt8} (h : Blanks s) {b : UInt8}
    (hb : isNumberByte b = false) (rest : List UInt8) :
    (s ++ b :: rest).takeWhile isNumberByte = [] := by
  cases s with
  | nil => rw [List.nil_append, List.takeWhile_cons_of_neg (by rw [hb]; decide)]
  | cons c s =>
      have hc : isNumberByte c = false := by
        rcases h c List.mem_cons_self with rfl | rfl | rfl | rfl <;> rfl
      rw [List.cons_append, List.takeWhile_cons_of_neg (by rw [hc]; decide)]

/-- The first byte of a value: no blank, not the end of an array, and no byte order mark. -/
def Starts (s : List UInt8) : Prop := ∃ b t, s = b :: t ∧ 32 < b ∧ b ≠ 0x5D ∧ b ≠ 0xEF

/-- The parser reads the texts of a kind of values. -/
structure Reads {α : Type} (parse : List UInt8 → Parsed α) (T : α → List UInt8 → Prop) : Prop where
  starts : ∀ {value : α} {s : List UInt8}, T value s → Starts s
  parse_eq : ∀ {value : α} {s rest : List UInt8}, T value s → rest.takeWhile isNumberByte = [] →
    parse (s ++ rest) = .ok value rest

section Children

variable {α : Type} {parse : List UInt8 → Parsed α} {T : α → List UInt8 → Prop}

/-- A value is read with the blanks around it. -/
theorem Reads.padded (h : Reads parse T) {value : α} {s : List UInt8} (hs : Padded T value s)
    {b : UInt8} (hb : isNumberByte b = false) (hlow : 32 < b) (rest : List UInt8) :
    ∃ rest', parse (skipWhitespace (s ++ b :: rest)) = .ok value rest' ∧
      skipWhitespace rest' = b :: rest := by
  obtain ⟨before, t, after, hbefore, ht, hafter, rfl⟩ := hs
  obtain ⟨c, t', rfl, hc, -⟩ := h.starts ht
  refine ⟨after ++ b :: rest, ?_, skipWhitespace_append hafter hlow rest⟩
  have hskip := skipWhitespace_append hbefore hc (t' ++ (after ++ b :: rest))
  have hparse := h.parse_eq ht (takeWhile_isNumberByte_blanks hafter hb rest)
  simp only [List.append_assoc, List.cons_append] at hskip hparse ⊢
  rw [hskip, hparse]

theorem parseElements_append (h : Reads parse T) {values : List α} {s : List UInt8}
    (hs : Elements T values s) {fuel : ℕ} (hfuel : s.length < fuel) (rest : List UInt8) :
    parseElements parse fuel (s ++ 0x5D :: rest) = .ok values rest := by
  induction hs generalizing fuel with
  | @last value s hs =>
      obtain ⟨fuel, rfl⟩ := Nat.exists_eq_succ_of_ne_zero (Nat.ne_zero_of_lt hfuel)
      obtain ⟨rest', hparse, hskip⟩ := h.padded hs (b := 0x5D) rfl (by decide) rest
      simp only [parseElements, hparse, Parsed.andThen, hskip]
      rw [if_neg (by decide)]
      rfl
  | @cons value values s t hs _ ih =>
      obtain ⟨fuel, rfl⟩ := Nat.exists_eq_succ_of_ne_zero (Nat.ne_zero_of_lt hfuel)
      obtain ⟨rest', hparse, hskip⟩ := h.padded hs (b := 0x2C) rfl (by decide) (t ++ 0x5D :: rest)
      have hlen : t.length < fuel := by
        rw [List.length_append, List.length_cons] at hfuel
        omega
      rw [List.append_assoc, List.cons_append]
      simp only [parseElements, hparse, Parsed.andThen, hskip, if_pos, ih hlen]

/-- The blanks in front of the first value can be taken away. -/
theorem Elements.strip (h : Reads parse T) {values : List α} {s : List UInt8}
    (hs : Elements T values s) :
    ∃ before t, Blanks before ∧ s = before ++ t ∧ Elements T values t ∧ Starts t := by
  have hpadded : ∀ {value : α} {s : List UInt8}, Padded T value s →
      ∃ before t, Blanks before ∧ s = before ++ t ∧ Padded T value t ∧ Starts t := by
    rintro value s ⟨before, t, after, hbefore, ht, hafter, rfl⟩
    obtain ⟨b, t', rfl, hb⟩ := h.starts ht
    exact ⟨before, b :: t' ++ after, hbefore, rfl,
      ⟨[], b :: t', after, fun _ h => absurd h List.not_mem_nil, ht, hafter, rfl⟩,
      b, t' ++ after, rfl, hb⟩
  cases hs with
  | last hs =>
      obtain ⟨before, t, hbefore, rfl, ht, hstarts⟩ := hpadded hs
      exact ⟨before, t, hbefore, rfl, Elements.last ht, hstarts⟩
  | @cons value values s rest hs hrest =>
      obtain ⟨before, t, hbefore, rfl, ht, b, t', rfl, hb⟩ := hpadded hs
      exact ⟨before, b :: t' ++ 0x2C :: rest, hbefore, List.append_assoc _ _ _,
        Elements.cons ht hrest, b, t' ++ 0x2C :: rest, rfl, hb⟩

theorem parseArray_empty {s : List UInt8} (hs : Blanks s) (rest : List UInt8) :
    parseArray parse (0x5B :: (s ++ 0x5D :: rest)) = .ok [] rest := by
  have hskip := skipWhitespace_append hs (b := 0x5D) (by decide) rest
  simp only [parseArray, hskip]
  rfl

theorem parseArray_append (h : Reads parse T) {values : List α} {s : List UInt8}
    (hs : Elements T values s) (rest : List UInt8) :
    parseArray parse (0x5B :: (s ++ 0x5D :: rest)) = .ok values rest := by
  obtain ⟨before, t, hbefore, rfl, ht, b, t', rfl, hb, hne, -⟩ := hs.strip h
  have hskip := skipWhitespace_append hbefore hb (t' ++ 0x5D :: rest)
  have hlen : (b :: t').length < (b :: (t' ++ 0x5D :: rest)).length + 1 := by
    simp only [List.length_cons, List.length_append]
    omega
  have hparse := parseElements_append h ht hlen rest
  rw [List.append_assoc, List.cons_append]
  simp only [parseArray, hskip]
  rw [if_neg (by decide)]
  simp only [if_neg hne]
  exact hparse

/-- A name, a colon and a value are read. -/
theorem parseMembers_append (h : Reads parse T) {members : List (List UInt8 × α)} {s : List UInt8}
    (hs : Members T members s) {fuel : ℕ} (hfuel : s.length < fuel) (rest : List UInt8) :
    parseMembers parse fuel (s ++ 0x7D :: rest) = .ok members rest := by
  have hmember : ∀ {member : List UInt8 × α} {s : List UInt8}, Member T member s →
      ∀ {b : UInt8}, isNumberByte b = false → 32 < b → ∀ rest : List UInt8,
        s ++ b :: rest ≠ [] ∧ ∃ s₁ s₂ s₃,
          parseString (skipWhitespace (s ++ b :: rest)) = .ok member.1 s₁ ∧
            skipWhitespace s₁ = 0x3A :: s₂ ∧ parse (skipWhitespace s₂) = .ok member.2 s₃ ∧
              skipWhitespace s₃ = b :: rest := by
    rintro ⟨name, value⟩ s ⟨before, text, body, after, t, hbefore, hbody, hafter, hname, ht, rfl⟩ b
      hb hlow rest
    dsimp only at hname ht
    obtain ⟨s₃, hparse, hskip⟩ := h.padded ht hb hlow rest
    refine ⟨by simp, after ++ 0x3A :: (t ++ b :: rest), t ++ b :: rest, s₃, ?_,
      skipWhitespace_append hafter (by decide) _, hparse, hskip⟩
    have hfront := skipWhitespace_append hbefore (b := quote) (by decide)
      (body ++ quote :: (after ++ 0x3A :: (t ++ b :: rest)))
    simp only [List.append_assoc, List.cons_append] at hfront ⊢
    rw [hfront, parseString_of_body hbody, hname]
  induction hs generalizing fuel with
  | @last member s hs =>
      obtain ⟨fuel, rfl⟩ := Nat.exists_eq_succ_of_ne_zero (Nat.ne_zero_of_lt hfuel)
      obtain ⟨hne, s₁, s₂, s₃, hname, hcolon, hvalue, hend⟩ :=
        hmember hs (b := 0x7D) rfl (by decide) rest
      simp only [parseMembers, if_neg hne, hname, Parsed.andThen, hcolon, hvalue, hend]
      rw [if_neg (by decide), if_neg (by decide)]
      rfl
  | @cons member members s t hs _ ih =>
      obtain ⟨fuel, rfl⟩ := Nat.exists_eq_succ_of_ne_zero (Nat.ne_zero_of_lt hfuel)
      obtain ⟨hne, s₁, s₂, s₃, hname, hcolon, hvalue, hend⟩ :=
        hmember hs (b := 0x2C) rfl (by decide) (t ++ 0x7D :: rest)
      have hlen : t.length < fuel := by
        rw [List.length_append, List.length_cons] at hfuel
        omega
      rw [List.append_assoc, List.cons_append]
      simp only [parseMembers, if_neg hne, hname, Parsed.andThen, hcolon, hvalue, hend, ih hlen]
      rw [if_neg (by decide)]
      rfl

/-- The blanks in front of the first name can be taken away. -/
theorem Members.strip {members : List (List UInt8 × α)} {s : List UInt8}
    (hs : Members T members s) :
    ∃ before t, Blanks before ∧ s = before ++ quote :: t ∧ Members T members (quote :: t) := by
  have hmember : ∀ {member : List UInt8 × α} {s : List UInt8}, Member T member s →
      ∃ before t, Blanks before ∧ s = before ++ quote :: t ∧ Member T member (quote :: t) := by
    rintro member s ⟨before, text, body, after, t, hbefore, hbody, hafter, hname, ht, rfl⟩
    exact ⟨before, body ++ quote :: (after ++ 0x3A :: t), hbefore, rfl, [], text, body, after, t,
      fun _ h => absurd h List.not_mem_nil, hbody, hafter, hname, ht, rfl⟩
  cases hs with
  | last hs =>
      obtain ⟨before, t, hbefore, rfl, ht⟩ := hmember hs
      exact ⟨before, t, hbefore, rfl, Members.last ht⟩
  | @cons member members s rest hs hrest =>
      obtain ⟨before, t, hbefore, rfl, ht⟩ := hmember hs
      exact ⟨before, t ++ 0x2C :: rest, hbefore, List.append_assoc _ _ _, Members.cons ht hrest⟩

theorem parseObject_empty {s : List UInt8} (hs : Blanks s) (rest : List UInt8) :
    parseObject parse (0x7B :: (s ++ 0x7D :: rest)) = .ok [] rest := by
  have hskip := skipWhitespace_append hs (b := 0x7D) (by decide) rest
  simp only [parseObject, hskip]
  rfl

theorem parseObject_append (h : Reads parse T) {members : List (List UInt8 × α)} {s : List UInt8}
    (hs : Members T members s) (rest : List UInt8) :
    parseObject parse (0x7B :: (s ++ 0x7D :: rest)) = .ok members rest := by
  obtain ⟨before, t, hbefore, rfl, ht⟩ := hs.strip
  have hskip := skipWhitespace_append hbefore (b := quote) (by decide) (t ++ 0x7D :: rest)
  have hlen : (quote :: t).length < (quote :: (t ++ 0x7D :: rest)).length + 1 := by
    simp only [List.length_cons, List.length_append]
    omega
  have hparse := parseMembers_append h ht hlen rest
  rw [List.append_assoc, List.cons_append]
  simp only [parseObject, hskip]
  rw [if_neg (by decide), if_neg (by decide)]
  exact hparse

end Children

/-! ### Values -/

section Values

variable {ν : Type} {double : List UInt8 → ν}

theorem Number.head {s : List UInt8} (h : Number s) :
    ∃ b t, s = b :: t ∧ (b = 0x2D ∨ isDigit b = true) := by
  obtain ⟨sign, whole, fraction, exponent, hsign, ⟨hne, hdigits⟩, -, -, rfl⟩ := h
  rcases hsign with rfl | rfl
  · cases whole with
    | nil => exact absurd rfl hne
    | cons b whole => exact ⟨b, _, rfl, Or.inr (hdigits b List.mem_cons_self)⟩
  · exact ⟨0x2D, _, rfl, Or.inl rfl⟩

theorem Leaf.starts {value : Json ν} {s : List UInt8} (h : Leaf double value s) : Starts s := by
  cases h with
  | null => exact ⟨_, _, rfl, by decide, by decide, by decide⟩
  | false => exact ⟨_, _, rfl, by decide, by decide, by decide⟩
  | true => exact ⟨_, _, rfl, by decide, by decide, by decide⟩
  | number h _ =>
      obtain ⟨b, t, rfl, hb⟩ := h.head
      refine ⟨b, t, rfl, ?_⟩
      rcases hb with rfl | hb
      · exact ⟨by decide, by decide, by decide⟩
      · simp only [isDigit, Bool.and_eq_true, decide_eq_true_eq, UInt8.le_iff_toNat_le] at hb
        refine ⟨UInt8.lt_iff_toNat_lt.2 (Nat.lt_of_lt_of_le (by decide) hb.1), ?_, ?_⟩
        · rintro rfl
          exact absurd hb.2 (by decide)
        · rintro rfl
          exact absurd hb.2 (by decide)
  | string h => exact ⟨_, _, rfl, by decide, by decide, by decide⟩

/-- A value without parts is read, whatever is done for arrays and objects. -/
theorem parseCases_leaf {array object : List UInt8 → Parsed (Json ν)} {value : Json ν}
    {s rest : List UInt8} (h : Leaf double value s) (hrest : rest.takeWhile isNumberByte = []) :
    parseCases double array object (s ++ rest) = .ok value rest := by
  cases h with
  | null => rfl
  | false => rfl
  | true => rfl
  | string h =>
      have hparse := parseString_of_body h rest
      rw [List.cons_append, List.append_assoc, List.cons_append, List.nil_append]
      unfold parseCases
      rw [if_neg (by simp [quote]), if_neg (by simp [quote]), if_neg (by simp [quote])]
      simp only [if_pos, hparse, Parsed.andThen]
  | number h hlen =>
      have hparse := parseNumber_append double h hlen hrest
      obtain ⟨b, t, rfl, hb⟩ := h.head
      have hnot : ∀ c : UInt8, c ≠ 0x2D → isDigit c = false → b ≠ c := by
        rintro c hc hdigit rfl
        rcases hb with h | h
        · exact hc h
        · rw [hdigit] at h
          cases h
      rw [List.cons_append] at hparse ⊢
      unfold parseCases
      rw [if_neg (by simp [hnot 0x6E (by decide) rfl]),
        if_neg (by simp [hnot 0x66 (by decide) rfl]), if_neg (by simp [hnot 0x74 (by decide) rfl])]
      simp only
      rw [if_neg (hnot quote (by decide) rfl), if_pos hb, hparse]

/-- **A value is read from its text.** -/
theorem reads_text (double : List UInt8 → ν) (depth : ℕ) :
    Reads (parseValue double depth) (Text double depth) := by
  induction depth with
  | zero => exact ⟨fun h => Leaf.starts h, fun h hrest => parseCases_leaf h hrest⟩
  | succ depth ih =>
      constructor
      · rintro value s (h | h)
        · exact h.starts
        · cases h <;> exact ⟨_, _, rfl, by decide, by decide, by decide⟩
      · rintro value s rest (h | h) hrest
        · exact parseCases_leaf h hrest
        · cases h with
          | emptyArray h =>
              rw [List.cons_append, List.append_assoc, List.cons_append, List.nil_append]
              simp [parseValue, parseCases, parseArray_empty h, quote, isDigit, Parsed.andThen]
          | array h =>
              rw [List.cons_append, List.append_assoc, List.cons_append, List.nil_append]
              simp [parseValue, parseCases, parseArray_append ih h, quote, isDigit, Parsed.andThen]
          | emptyObject h =>
              rw [List.cons_append, List.append_assoc, List.cons_append, List.nil_append]
              simp [parseValue, parseCases, parseObject_empty h, quote, isDigit, Parsed.andThen]
          | object h =>
              rw [List.cons_append, List.append_assoc, List.cons_append, List.nil_append]
              simp [parseValue, parseCases, parseObject_append ih h, quote, isDigit, Parsed.andThen]

/-! ### Strings in memory -/

/-- No byte is a NUL. -/
def NulFree (s : List UInt8) : Prop := ∀ b ∈ s, b ≠ 0

theorem NulFree.of_not_mem {s : List UInt8} (h : (0 : UInt8) ∉ s) : NulFree s := by
  rintro b hb rfl
  exact h hb

theorem NulFree.append {s t : List UInt8} (hs : NulFree s) (ht : NulFree t) : NulFree (s ++ t) :=
  fun b hb => (List.mem_append.1 hb).elim (hs b) (ht b)

theorem NulFree.cons {b : UInt8} {s : List UInt8} (hb : b ≠ 0) (hs : NulFree s) :
    NulFree (b :: s) := List.forall_mem_cons.2 ⟨hb, hs⟩

theorem NulFree.nil : NulFree [] := fun _ h => absurd h List.not_mem_nil

theorem Blanks.nulFree {s : List UInt8} (h : Blanks s) : NulFree s := by
  intro b hb
  rcases h b hb with rfl | rfl | rfl | rfl <;> decide

theorem Hex4.nulFree {n : ℕ} {digits : List UInt8} (h : Hex4 n digits) : NulFree digits := by
  obtain ⟨a, b, c, d, hmap, -⟩ := h
  intro x hx
  have hmem : hexVal x ∈ [some a, some b, some c, some d] := hmap ▸ List.mem_map_of_mem hx
  rintro rfl
  simp [hexVal] at hmem

theorem Spelled.nulFree {c : Char} {t : List UInt8} (h : Spelled c t) : NulFree t := by
  cases h with
  | plain hlow _ _ =>
      intro b hb
      by_cases h : c.toNat < 0x80
      · rw [Unicode.utf8EncodeChar_one h, List.mem_singleton] at hb
        have hval : b.toNat = c.toNat := by
          rw [hb, UInt8.toNat_ofNat', Nat.mod_eq_of_lt (by omega)]
        rintro rfl
        exact absurd (hval ▸ hlow) (by decide)
      · have hle := Unicode.le_of_mem_utf8EncodeChar (Nat.not_lt.1 h) hb
        rintro rfl
        exact absurd hle (by decide)
  | letter h =>
      simp only [letters, List.mem_cons, Prod.mk.injEq, List.not_mem_nil, or_false] at h
      refine NulFree.cons (by decide) (NulFree.cons ?_ NulFree.nil)
      rcases h with ⟨rfl, -⟩ | ⟨rfl, -⟩ | ⟨rfl, -⟩ | ⟨rfl, -⟩ | ⟨rfl, -⟩ | ⟨rfl, -⟩ | ⟨rfl, -⟩ |
        ⟨rfl, -⟩ <;> decide
  | unit h => exact NulFree.cons (by decide) (NulFree.cons (by decide) h.nulFree)
  | pair _ hhigh hlow =>
      exact NulFree.cons (by decide) (NulFree.cons (by decide) (hhigh.nulFree.append
        (NulFree.cons (by decide) (NulFree.cons (by decide) hlow.nulFree))))

theorem Body.nulFree {text : List Char} {body : List UInt8} (h : Body text body) :
    NulFree body := by
  induction h with
  | nil => exact NulFree.nil
  | cons hc _ ih => exact hc.nulFree.append ih

theorem Leaf.nulFree {value : Json ν} {s : List UInt8} (h : Leaf double value s) : NulFree s := by
  cases h with
  | null => exact NulFree.of_not_mem (by decide)
  | false => exact NulFree.of_not_mem (by decide)
  | true => exact NulFree.of_not_mem (by decide)
  | number h _ =>
      intro b hb
      have hbyte := h.spec.2 b hb
      rintro rfl
      cases hbyte
  | string h =>
      exact NulFree.cons (by decide) (h.nulFree.append (NulFree.cons (by decide) NulFree.nil))

/-- A text has no NUL in it, however deep it is nested. -/
theorem Text.nulFree {depth : ℕ} {value : Json ν} {s : List UInt8} (h : Text double depth value s) :
    NulFree s := by
  induction depth generalizing value s with
  | zero => exact Leaf.nulFree h
  | succ depth ih =>
      have hpadded : ∀ {value : Json ν} {s : List UInt8}, Padded (Text double depth) value s →
          NulFree s := by
        rintro value s ⟨before, t, after, hbefore, ht, hafter, rfl⟩
        exact hbefore.nulFree.append ((ih ht).append hafter.nulFree)
      have hmember : ∀ {member : List UInt8 × Json ν} {s : List UInt8},
          Member (Text double depth) member s → NulFree s := by
        rintro member s ⟨before, text, body, after, t, hbefore, hbody, hafter, -, ht, rfl⟩
        exact hbefore.nulFree.append (NulFree.cons (by decide) (hbody.nulFree.append
          (NulFree.cons (by decide) (hafter.nulFree.append
            (NulFree.cons (by decide) (hpadded ht))))))
      have helements : ∀ {values : List (Json ν)} {s : List UInt8},
          Elements (Text double depth) values s → NulFree s := by
        intro values s hs
        induction hs with
        | last hs => exact hpadded hs
        | cons hs _ ih' => exact (hpadded hs).append (NulFree.cons (by decide) ih')
      have hmembers : ∀ {members : List (List UInt8 × Json ν)} {s : List UInt8},
          Members (Text double depth) members s → NulFree s := by
        intro members s hs
        induction hs with
        | last hs => exact hmember hs
        | cons hs _ ih' => exact (hmember hs).append (NulFree.cons (by decide) ih')
      have hend : ∀ b : UInt8, b ≠ 0 → NulFree [b] := fun b hb => NulFree.cons hb NulFree.nil
      rcases h with h | h
      · exact h.nulFree
      · cases h with
        | emptyArray h => exact NulFree.cons (by decide) (h.nulFree.append (hend _ (by decide)))
        | array h => exact NulFree.cons (by decide) ((helements h).append (hend _ (by decide)))
        | emptyObject h => exact NulFree.cons (by decide) (h.nulFree.append (hend _ (by decide)))
        | object h => exact NulFree.cons (by decide) ((hmembers h).append (hend _ (by decide)))

theorem Padded.nulFree {depth : ℕ} {value : Json ν} {s : List UInt8}
    (h : Padded (Text double depth) value s) : NulFree s := by
  obtain ⟨before, t, after, hbefore, ht, hafter, rfl⟩ := h
  exact hbefore.nulFree.append (ht.nulFree.append hafter.nulFree)

theorem cstr_append {s : List UInt8} (hs : NulFree s) (junk : List UInt8) :
    cstr (s ++ 0 :: junk) = s :=
  takeWhile_append_stop (fun b hb => decide_eq_true (hs b hb)) rfl

/-- The byte order mark of UTF-8. -/
def byteOrderMark : List UInt8 := [0xEF, 0xBB, 0xBF]

/-- A byte order mark in front of a text is left out, and nothing else is. -/
theorem skipUtf8Bom_append {bom s : List UInt8} (hbom : bom = [] ∨ bom = byteOrderMark)
    (hhead : ∃ b t, s = b :: t ∧ b ≠ 0xEF) : skipUtf8Bom (bom ++ s ++ [0]) = s ++ [0] := by
  obtain ⟨b, t, rfl, hb⟩ := hhead
  rcases hbom with rfl | rfl
  · rw [skipUtf8Bom, if_neg]
    · rfl
    · rintro ⟨-, htake⟩
      simp only [List.nil_append, List.cons_append, List.take_succ_cons, List.cons.injEq] at htake
      exact hb htake.1
  · rw [skipUtf8Bom, if_pos]
    · rfl
    · simp [byteOrderMark]

/-- A text is parsed as a whole. -/
theorem parses_text {value : Json ν} {s : List UInt8}
    (h : Padded (Text double nestingLimit) value s) {bom : List UInt8}
    (hbom : bom = [] ∨ bom = byteOrderMark) (junk : List UInt8) :
    ∃ rest, cJSONParse double (bom ++ s ++ 0 :: junk) = .ok value rest := by
  have hreads := reads_text double nestingLimit
  have hfree : NulFree (bom ++ s) := by
    refine NulFree.append ?_ h.nulFree
    rcases hbom with rfl | rfl
    · exact NulFree.nil
    · exact NulFree.of_not_mem (by decide)
  have hhead : ∃ b t, s = b :: t ∧ b ≠ 0xEF := by
    obtain ⟨before, t, after, hbefore, ht, -, rfl⟩ := h
    cases before with
    | nil =>
        obtain ⟨b, t', rfl, -, -, hb⟩ := hreads.starts ht
        exact ⟨b, t' ++ after, rfl, hb⟩
    | cons b before =>
        refine ⟨b, before ++ (t ++ after), rfl, ?_⟩
        rcases hbefore b List.mem_cons_self with rfl | rfl | rfl | rfl <;> decide
  have hne : bom ++ s ++ [0] ≠ [] := by simp
  rw [cJSONParse, cstr_append hfree, cJSONParseWithLength, if_neg hne,
    skipUtf8Bom_append hbom hhead]
  -- nothing behind the value is looked at
  obtain ⟨before, t, after, hbefore, ht, hafter, rfl⟩ := h
  obtain ⟨b, t', rfl, hb, -⟩ := hreads.starts ht
  have hskip := skipWhitespace_append hbefore hb (t' ++ (after ++ [0]))
  refine ⟨after ++ [0], ?_⟩
  simp only [List.append_assoc, List.cons_append] at hskip ⊢
  rw [hskip]
  exact hreads.parse_eq ht (takeWhile_isNumberByte_blanks hafter rfl [])

end Values

end CJson

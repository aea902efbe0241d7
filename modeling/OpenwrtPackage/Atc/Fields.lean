/-
**Fields that are written and read back.**

A response of a modem is a prefix, a colon, and fields with commas between them; a blank may stand
in front of a field, and a dash stands for a field that has no value.

* `Atc.AtField`, `Atc.AtField.Text` — a field, and how it is written;
* `Atc.Item`, `Atc.joined` — a field of a line with the conversion that reads it, and a line;
* `Atc.atTokScanfLoop_items` — fields in a row, with more of the line behind them;
* `Atc.RoundTrip` — the fields come back from `at_tok_scanf`;
* `Atc.roundTrip_iff` — **they do exactly when no placeholder for a number stands behind a blank or
  at the end of the line**;
* `Atc.not_roundTrip` — a placeholder at the end.
-/
import OpenwrtPackage.Atc.AtTok
import Mathlib.Data.List.Forall2

set_option relaxedAutoImplicit false
set_option autoImplicit false

namespace Atc

open CScan

/-! ### Fields and their texts -/

/-- A field of a response. -/
inductive AtField where
  | int (n : ℤ)
  | hex (n : ℕ)
  | str (s : List Char)
  | placeholder
  deriving DecidableEq

/-- The digits of a number. -/
def Digits (base n : ℕ) (t : List Char) : Prop :=
  t ≠ [] ∧ (∀ c ∈ t, isDigit base c = true) ∧ value base t = n

/-- A decimal number, with a minus in front when it is negative. -/
def DecText (n : ℤ) (t : List Char) : Prop :=
  (∃ m : ℕ, n = m ∧ Digits 10 m t) ∨
    ∃ (m : ℕ) (s : List Char), n = -m ∧ Digits 10 m s ∧ t = '-' :: s

/-- Text in quotes. -/
def quoted (s : List Char) : List Char := '"' :: (s ++ ['"'])

/-- How a field is written; the quotes of a hexadecimal number may be missing. -/
def AtField.Text : AtField → List Char → Prop
  | .int n, t => DecText n t
  | .hex n, t => ∃ digits, Digits 16 n digits ∧ (t = digits ∨ t = quoted digits)
  | .str s, t => '"' ∉ s ∧ t = quoted s
  | .placeholder, t => t = ['-']

/-- The conversion for a field; any can meet a placeholder. -/
def AtField.ReadBy : AtField → AtConv → Prop
  | .int _, c => c = .d
  | .hex _, c => c = .x
  | .str _, c => c = .s
  | .placeholder, _ => True

/-- A field of a line, with the conversion that reads it. -/
structure Item where
  /-- a blank stands in front of the field -/
  blank : Bool
  field : AtField
  text : List Char
  conv : AtConv
  isText : field.Text text
  readBy : field.ReadBy conv

def Item.blanks (i : Item) : List Char := if i.blank then [' '] else []

/-- The fields with commas between them. -/
def joined : List Item → List Char
  | [] => []
  | [i] => i.blanks ++ i.text
  | i :: j :: is => i.blanks ++ (i.text ++ ',' :: joined (j :: is))

/-- What an `int` keeps of a decimal number. -/
def intOf (n : ℤ) : ℤ := toInt (clampLong n)

/-- What an `int` keeps of a hexadecimal number: its lowest 32 bits, unless it is too large for an
`unsigned long`. -/
def hexOf (n : ℕ) : ℤ := if n < 2 ^ 64 then (n : ℤ).bmod (2 ^ 32) else -1

theorem digits_dec (n : ℕ) : Digits 10 n (dec n) :=
  ⟨Nat.toDigits_ne_nil, isDigit_of_mem_toDigits (by decide) (by decide) n,
    value_toDigits (by decide) (by decide) n⟩

/-- A number that is not negative, as it is printed. -/
def natItem (blank : Bool) (n : ℕ) : Item :=
  ⟨blank, .int n, dec n, .d, .inl ⟨n, rfl, digits_dec n⟩, rfl⟩

theorem intOf_eq {n : ℤ} (h : -2 ^ 31 ≤ n) (hlt : n < 2 ^ 31) : intOf n = n :=
  toInt_clampLong h hlt

/-- What is stored for a field.  Without a number to store, nothing is said of a placeholder. -/
def AtField.Stored : AtField → AtConv → Option AtVal → Prop
  | .int n, _, out => out = some (.int (intOf n))
  | .hex n, _, out => out = some (.int (hexOf n))
  | .str s, _, out => out = some (.str s)
  | .placeholder, c, out => c = .d → out = some (.int (-1))

/-- No placeholder for a number stands behind a blank or at the end of the line. -/
def Clear : List Item → Prop
  | [] => True
  | i :: is =>
      (i.field = .placeholder → i.conv ≠ .s → i.blank = false ∧ is ≠ []) ∧ Clear is

/-! ### One field -/

/-- Where the line stands behind a field, in front of `rest`. -/
def Behind (rest : List Char) (line : Option (List Char)) : Prop :=
  if rest = [] then line = none ∨ line = some [] else line = some rest.tail

theorem behind_comma (rest : List Char) (line : Option (List Char)) :
    Behind (',' :: rest) line ↔ line = some rest := by
  rw [Behind, if_neg (List.cons_ne_nil _ _), List.tail_cons]

theorem Item.isspace_blanks (i : Item) : ∀ c ∈ i.blanks, isspace c = true := by
  intro c hc
  unfold Item.blanks at hc
  split at hc
  · rw [List.mem_singleton.1 hc]
    rfl
  · cases hc

/-- What no digit is. -/
theorem plain_of_isDigit {base : ℕ} {c : Char} (h : isDigit base c = true) :
    isspace c = false ∧ c ≠ '"' ∧ c ≠ ',' := by
  have hle := le_toNat_of_isDigit h
  refine ⟨isspace_eq_false hle, ?_, ?_⟩
  · rintro rfl
    exact absurd hle (by decide)
  · rintro rfl
    exact absurd hle (by decide)

/-- A field without quotes, and where the line stands. -/
theorem nextTok_bare {blanks t rest : List Char} (hblanks : ∀ c ∈ blanks, isspace c = true)
    (hne : t ≠ []) (ht : ∀ c ∈ t, isspace c = false ∧ c ≠ '"' ∧ c ≠ ',') (hrest : Ends rest) :
    ∃ line, nextTok (some (blanks ++ (t ++ rest))) = (some t, line) ∧ Behind rest line := by
  refine ⟨_, nextTok_plain hblanks hne ht hrest, ?_⟩
  unfold Behind
  by_cases hnil : rest = []
  · rw [if_pos hnil, if_pos hnil]
    exact .inl rfl
  · rw [if_neg hnil, if_neg hnil]

/-- A field in quotes, and where the line stands. -/
theorem nextTok_inQuotes {blanks t rest : List Char} (hblanks : ∀ c ∈ blanks, isspace c = true)
    (ht : '"' ∉ t) (hrest : Ends rest) :
    ∃ line, nextTok (some (blanks ++ (quoted t ++ rest))) = (some t, line) ∧
      Behind rest line := by
  have htok := nextTok_quoted hblanks ht hrest
  rw [quoted, List.cons_append, List.append_assoc, List.singleton_append]
  refine ⟨_, htok, ?_⟩
  unfold Behind
  by_cases hnil : rest = []
  · rw [if_pos hnil, hnil]
    exact .inr rfl
  · rw [if_neg hnil]

theorem Digits.plain {base n : ℕ} {t : List Char} (h : Digits base n t) :
    ∀ c ∈ t, isspace c = false ∧ c ≠ '"' ∧ c ≠ ',' :=
  fun c hc => plain_of_isDigit (h.2.1 c hc)

theorem DecText.plain {n : ℤ} {t : List Char} (h : DecText n t) :
    t ≠ [] ∧ ∀ c ∈ t, isspace c = false ∧ c ≠ '"' ∧ c ≠ ',' := by
  rcases h with ⟨m, -, hm⟩ | ⟨m, s, -, hm, rfl⟩
  · exact ⟨hm.1, hm.plain⟩
  · refine ⟨List.cons_ne_nil _ _, fun c hc => ?_⟩
    rcases List.mem_cons.1 hc with rfl | hc
    · decide
    · exact hm.plain c hc

theorem strtol_decText {n : ℤ} {t : List Char} (h : DecText n t) :
    strtol 10 t = (clampLong n, true) := by
  rcases h with ⟨m, rfl, hne, hdigits, rfl⟩ | ⟨m, s, rfl, ⟨hne, hdigits, rfl⟩, rfl⟩
  · rw [strtol, scanInt_all hne hdigits]
  · rw [strtol, scanInt_minus hne hdigits]

theorem toInt_strtoul_digits {n : ℕ} {t : List Char} (h : Digits 16 n t) :
    (strtoul 16 t).2 = true ∧ toInt (strtoul 16 t).1 = hexOf n := by
  obtain ⟨hne, hdigits, rfl⟩ := h
  rw [strtoul, scanInt_all hne hdigits]
  refine ⟨rfl, ?_⟩
  dsimp only
  rw [Int.natAbs_natCast, hexOf]
  split
  · exact Int.bmod_bmod_of_dvd (by decide)
  · rfl

/-- **One field is read back**, whatever stands behind it. -/
theorem next_item (i : Item) (hplaceholder : i.field ≠ .placeholder) {rest : List Char}
    (hrest : Ends rest) :
    ∃ out line, i.conv.next (some (i.blanks ++ (i.text ++ rest))) = ⟨true, out, line⟩ ∧
      i.field.Stored i.conv out ∧ Behind rest line := by
  obtain ⟨blank, field, text, conv, hText, hreadBy⟩ := i
  have hblanks := Item.isspace_blanks ⟨blank, field, text, conv, hText, hreadBy⟩
  revert hblanks
  generalize Item.blanks ⟨blank, field, text, conv, hText, hreadBy⟩ = blanks
  intro hblanks
  dsimp only at hplaceholder ⊢
  cases field with
  | int n =>
      obtain rfl : conv = .d := hreadBy
      obtain ⟨hne, hplain⟩ := DecText.plain hText
      obtain ⟨line, htok, hline⟩ := nextTok_bare hblanks hne hplain hrest
      refine ⟨some (.int (intOf n)), line, ?_, rfl, hline⟩
      show atTokNextintBase 10 false _ = _
      unfold atTokNextintBase
      rw [htok]
      dsimp only
      rw [if_neg (by decide), strtol_decText hText]
      rfl
  | hex n =>
      obtain rfl : conv = .x := hreadBy
      obtain ⟨digits, hdigits, htext⟩ := hText
      have hquote : '"' ∉ digits := fun hc => (hdigits.plain _ hc).2.1 rfl
      have htok : ∃ line, nextTok (some (blanks ++ (text ++ rest))) = (some digits, line) ∧
          Behind rest line := by
        rcases htext with rfl | rfl
        · exact nextTok_bare hblanks hdigits.1 hdigits.plain hrest
        · exact nextTok_inQuotes hblanks hquote hrest
      obtain ⟨line, htok, hline⟩ := htok
      obtain ⟨hok, hvalue⟩ := toInt_strtoul_digits hdigits
      refine ⟨some (.int (hexOf n)), line, ?_, rfl, hline⟩
      show atTokNextintBase 16 true _ = _
      unfold atTokNextintBase
      rw [htok]
      dsimp only
      rw [if_pos rfl, hok, hvalue]
  | str s =>
      obtain rfl : conv = .s := hreadBy
      obtain ⟨hquote, rfl⟩ := hText
      obtain ⟨line, htok, hline⟩ := nextTok_inQuotes hblanks hquote hrest
      refine ⟨some (.str s), line, ?_, rfl, hline⟩
      show atTokNextstr _ = _
      rw [atTokNextstr, htok]
  | placeholder => exact absurd rfl hplaceholder

/-- What is written for a field with a value does not look like a placeholder. -/
theorem Item.no_dash (i : Item) (hplaceholder : i.field ≠ .placeholder) (rest : List Char) :
    i.text ≠ [] ∧ ∀ rest', i.text ++ rest ≠ '-' :: ',' :: rest' := by
  have hdigits : ∀ {base n : ℕ} {t : List Char}, Digits base n t →
      t ≠ [] ∧ ∀ c ∈ t.head?, c ≠ '-' ∧ c ≠ ',' := by
    intro base n t ht
    refine ⟨ht.1, fun c hc => ?_⟩
    have hmem : c ∈ t := List.mem_of_mem_head? hc
    refine ⟨?_, (ht.plain c hmem).2.2⟩
    rintro rfl
    exact absurd (le_toNat_of_isDigit (ht.2.1 _ hmem)) (by decide)
  have hhead : ∀ t : List Char, (t ≠ [] ∧ ∀ c ∈ t.head?, c ≠ '-' ∧ c ≠ ',') →
      t ≠ [] ∧ ∀ rest', t ++ rest ≠ '-' :: ',' :: rest' := by
    rintro t ⟨hne, hc⟩
    obtain ⟨x, xs, rfl⟩ := List.exists_cons_of_ne_nil hne
    exact ⟨hne, fun rest' heq => (hc x rfl).1 (List.cons.inj heq).1⟩
  have hquoted : ∀ s : List Char, quoted s ≠ [] ∧ ∀ c ∈ (quoted s).head?, c ≠ '-' ∧ c ≠ ',' := by
    intro s
    refine ⟨List.cons_ne_nil _ _, ?_⟩
    rintro c ⟨rfl⟩
    decide
  obtain ⟨blank, field, text, conv, hText, hreadBy⟩ := i
  cases field with
  | int n =>
      rcases hText with ⟨m, -, hm⟩ | ⟨m, s, -, hm, rfl⟩
      · exact hhead text (hdigits hm)
      · refine ⟨List.cons_ne_nil _ _, fun rest' heq => ?_⟩
        -- Behind the minus of a negative number stands a digit, and no comma.
        obtain ⟨hne, hc⟩ := hdigits hm
        obtain ⟨x, xs, rfl⟩ := List.exists_cons_of_ne_nil hne
        exact (hc x rfl).2 (List.cons.inj (List.cons.inj heq).2).1
  | hex n =>
      obtain ⟨digits, hm, rfl | rfl⟩ := hText
      · exact hhead _ (hdigits hm)
      · exact hhead _ (hquoted digits)
  | str s =>
      obtain ⟨-, rfl⟩ := hText
      exact hhead _ (hquoted s)
  | placeholder => exact absurd rfl hplaceholder

theorem Item.blanks_append (i : Item) (s : List Char) :
    i.blanks ++ s = if i.blank then ' ' :: s else s := by
  unfold Item.blanks
  split <;> rfl

theorem Item.no_dash_blanks (i : Item) (hplaceholder : i.field ≠ .placeholder)
    (rest : List Char) : i.blanks ++ (i.text ++ rest) ≠ [] ∧
      ∀ rest', i.blanks ++ (i.text ++ rest) ≠ '-' :: ',' :: rest' := by
  obtain ⟨hne, hdash⟩ := i.no_dash hplaceholder rest
  rw [i.blanks_append]
  split
  · exact ⟨List.cons_ne_nil _ _, by simp⟩
  · exact ⟨fun heq => hne (List.append_eq_nil_iff.1 heq).1, hdash⟩

/-! ### Placeholders -/

theorem Item.text_of_placeholder (i : Item) (h : i.field = .placeholder) : i.text = ['-'] := by
  have := i.isText
  rwa [h] at this

/-- Behind a blank or at the end of the line a dash is not taken for a placeholder. -/
theorem Item.not_skipped (i : Item) {rest : List Char} (h : ¬ (i.blank = false ∧ rest ≠ [])) :
    ∀ rest', i.blanks ++ '-' :: rest ≠ '-' :: ',' :: rest' := by
  intro rest' heq
  rw [i.blanks_append] at heq
  split at heq
  · exact absurd (List.cons.inj heq).1 (by decide)
  · next hblank =>
      refine h ⟨by simpa using hblank, fun hnil => ?_⟩
      rw [hnil] at heq
      exact absurd (List.cons.inj heq).2 (by simp)

/-- A lone dash is no number. -/
theorem next_dash {c : AtConv} (hc : c ≠ .s) {blanks rest : List Char}
    (hblanks : ∀ c ∈ blanks, isspace c = true) (hrest : Ends rest) :
    (c.next (some (blanks ++ ('-' :: rest)))).ok = false := by
  obtain ⟨line, htok, -⟩ := @nextTok_bare blanks ['-'] rest hblanks (List.cons_ne_nil _ _)
    (by simp [isspace]) hrest
  rw [List.singleton_append] at htok
  have hbase : ∀ base uns, (atTokNextintBase base uns (some (blanks ++ '-' :: rest))).ok =
      (if uns then strtoul base ['-'] else strtol base ['-']).2 := by
    intro base uns
    unfold atTokNextintBase
    rw [htok]
  cases c with
  | d => exact hbase 10 false
  | x => exact hbase 16 true
  | b =>
      have hint : (atTokNextint (some (blanks ++ '-' :: rest))).ok = false := hbase 10 false
      show (atTokNextbool _).ok = false
      unfold atTokNextbool
      split
      · next heq =>
          rw [heq] at hint
          cases hint
      · rfl
  | s => exact absurd rfl hc

/-- **One field of a line**: it is read, and the line goes on behind it. -/
theorem atTokScanfLoop_item (i : Item) {rest : List Char} (hrest : Ends rest)
    (hclear : i.field = .placeholder → i.conv ≠ .s → i.blank = false ∧ rest ≠ [])
    (fmt : List AtConv) :
    ∃ out line, i.field.Stored i.conv out ∧ Behind rest line ∧
      atTokScanfLoop (i.conv :: fmt) (some (i.blanks ++ (i.text ++ rest))) =
        ((atTokScanfLoop fmt line).1 + 1, out :: (atTokScanfLoop fmt line).2) := by
  by_cases hplaceholder : i.field = .placeholder
  · have hstored : ∀ out, (i.conv = .d → out = some (.int (-1))) →
        i.field.Stored i.conv out := by
      intro out hout
      rw [hplaceholder]
      exact hout
    rw [i.text_of_placeholder hplaceholder, List.singleton_append]
    by_cases hskip : i.blank = false ∧ rest ≠ []
    · obtain ⟨hblank, hne⟩ := hskip
      obtain ⟨c, rest, rfl⟩ := List.exists_cons_of_ne_nil hne
      obtain rfl : c = ',' := hrest c rfl
      rw [i.blanks_append, hblank, if_neg (by decide), atTokScanfLoop_placeholder]
      refine ⟨_, some rest, hstored _ fun hd => ?_, (behind_comma _ _).2 rfl, rfl⟩
      rw [if_pos hd]
    · -- Behind a blank or at the end of the line only `%s` takes a dash: as a string.
      have hs : i.conv = .s := by
        by_contra hs
        exact hskip (hclear hplaceholder hs)
      obtain ⟨line, htok, hline⟩ := @nextTok_bare i.blanks ['-'] rest i.isspace_blanks
        (List.cons_ne_nil _ _) (by simp [isspace]) hrest
      rw [List.singleton_append] at htok
      have hnext : AtConv.s.next (some (i.blanks ++ '-' :: rest)) =
          ⟨true, some (.str ['-']), line⟩ := by
        show atTokNextstr _ = _
        rw [atTokNextstr, htok]
      refine ⟨_, line, hstored (some (.str ['-'])) fun hd => ?_, hline, ?_⟩
      · rw [hs] at hd
        cases hd
      · rw [hs]
        exact atTokScanfLoop_of_ok fmt (by simp) (i.not_skipped hskip) hnext
  · obtain ⟨out, line, hnext, hstored, hline⟩ := next_item i hplaceholder hrest
    obtain ⟨hne, hdash⟩ := i.no_dash_blanks hplaceholder rest
    exact ⟨out, line, hstored, hline, atTokScanfLoop_of_ok fmt hne hdash hnext⟩

/-- A placeholder for a number behind a blank or at the end of the line ends the scan. -/
theorem atTokScanfLoop_stuck (i : Item) {rest : List Char} (hrest : Ends rest)
    (hplaceholder : i.field = .placeholder) (hs : i.conv ≠ .s)
    (hstuck : ¬ (i.blank = false ∧ rest ≠ [])) (fmt : List AtConv) :
    (atTokScanfLoop (i.conv :: fmt) (some (i.blanks ++ (i.text ++ rest)))).1 = 0 := by
  rw [i.text_of_placeholder hplaceholder, List.singleton_append]
  rw [atTokScanfLoop_next i.conv fmt (by simp) (i.not_skipped hstuck),
    next_dash hs i.isspace_blanks hrest]
  rfl

/-! ### A line of fields -/

/-- The values of some fields are stored. -/
def AllStored (items : List Item) (outs : List (Option AtVal)) : Prop :=
  List.Forall₂ (fun i out => i.field.Stored i.conv out) items outs

theorem joined_cons (i : Item) {is : List Item} (hne : is ≠ []) (rest : List Char) :
    joined (i :: is) ++ rest = i.blanks ++ (i.text ++ ',' :: (joined is ++ rest)) := by
  obtain ⟨j, is, rfl⟩ := List.exists_cons_of_ne_nil hne
  simp only [joined, List.append_assoc, List.cons_append]

theorem joined_singleton (i : Item) (rest : List Char) :
    joined [i] ++ rest = i.blanks ++ (i.text ++ rest) := by
  rw [joined, List.append_assoc]

theorem ends_comma (rest : List Char) : Ends (',' :: rest) := by
  rintro c ⟨rfl⟩
  rfl

theorem ends_nil : Ends [] := by
  rintro c ⟨⟩

/-- A line without placeholders. -/
theorem clear_of_forall {items : List Item} (h : ∀ i ∈ items, i.field ≠ .placeholder) :
    Clear items := by
  induction items with
  | nil => trivial
  | cons i is ih =>
      exact ⟨fun hp => absurd hp (h i (List.mem_cons_self ..)),
        ih fun j hj => h j (List.mem_cons_of_mem _ hj)⟩

/-- **Fields in a row**: each is stored, and the line goes on behind them. -/
theorem atTokScanfLoop_items {items : List Item} (hne : items ≠ []) (hclear : Clear items)
    {rest : List Char} (hrest : Ends rest) (fmt : List AtConv) :
    ∃ outs line, AllStored items outs ∧ Behind rest line ∧
      atTokScanfLoop (items.map Item.conv ++ fmt) (some (joined items ++ rest)) =
        (items.length + (atTokScanfLoop fmt line).1, outs ++ (atTokScanfLoop fmt line).2) := by
  induction items with
  | nil => exact absurd rfl hne
  | cons i is ih =>
      obtain ⟨hi, his⟩ := hclear
      by_cases hlast : is = []
      · subst hlast
        obtain ⟨out, line, hstored, hline, hloop⟩ := atTokScanfLoop_item i hrest
          (fun hp hs => absurd rfl (hi hp hs).2) fmt
        refine ⟨[out], line, .cons hstored .nil, hline, ?_⟩
        rw [joined_singleton, List.map_singleton, List.singleton_append, hloop]
        simp [Nat.add_comm]
      · obtain ⟨outs, line, hstored, hline, hloop⟩ := ih hlast his
        obtain ⟨out, line', hout, hline', hfirst⟩ := atTokScanfLoop_item i
          (ends_comma (joined is ++ rest))
          (fun hp hs => ⟨(hi hp hs).1, List.cons_ne_nil _ _⟩) (is.map Item.conv ++ fmt)
        rw [behind_comma] at hline'
        subst hline'
        refine ⟨out :: outs, line, .cons hout hstored, hline, ?_⟩
        rw [joined_cons i hlast, List.map_cons, List.cons_append, hfirst, hloop]
        simp [Nat.add_right_comm]

/-- The fields of a whole line. -/
theorem atTokScanfLoop_line {items : List Item} (hclear : Clear items) (fmt : List AtConv) :
    ∃ outs, AllStored items outs ∧
      atTokScanfLoop (items.map Item.conv ++ fmt) (some (joined items)) =
        (items.length, outs ++ fmt.map fun _ => none) := by
  by_cases hne : items = []
  · subst hne
    exact ⟨[], .nil, atTokScanfLoop_end (.inr rfl) fmt⟩
  · obtain ⟨outs, line, hstored, hline, hloop⟩ :=
      atTokScanfLoop_items hne hclear ends_nil fmt
    refine ⟨outs, hstored, ?_⟩
    rw [List.append_nil, atTokScanfLoop_end hline] at hloop
    exact hloop

/-- When all fields of a line are read, no placeholder was in the way. -/
theorem clear_of_count {items : List Item} {fmt : List AtConv}
    (h : items.length ≤
      (atTokScanfLoop (items.map Item.conv ++ fmt) (some (joined items))).1) : Clear items := by
  induction items with
  | nil => trivial
  | cons i is ih =>
      by_cases hlast : is = []
      · subst hlast
        refine ⟨fun hp hs => ?_, trivial⟩
        have hstuck := atTokScanfLoop_stuck i ends_nil hp hs (fun hc => hc.2 rfl) fmt
        rw [← List.append_nil (joined [i]), joined_singleton, List.map_singleton,
          List.singleton_append, hstuck] at h
        cases h
      · rw [← List.append_nil (joined (i :: is)), joined_cons i hlast, List.append_nil,
          List.map_cons, List.cons_append] at h
        have hi : i.field = .placeholder → i.conv ≠ .s → i.blank = false := by
          intro hp hs
          by_contra hblank
          rw [atTokScanfLoop_stuck i (ends_comma _) hp hs (fun hc => hblank hc.1)] at h
          cases h
        obtain ⟨out, line, -, hline, hfirst⟩ := atTokScanfLoop_item i (ends_comma (joined is))
          (fun hp hs => ⟨hi hp hs, List.cons_ne_nil _ _⟩) (is.map Item.conv ++ fmt)
        rw [behind_comma] at hline
        rw [hfirst, hline, List.length_cons] at h
        exact ⟨fun hp hs => ⟨hi hp hs, hlast⟩, ih (Nat.le_of_succ_le_succ h)⟩

/-- The scan of a line that is short enough for `s_line`. -/
theorem atTokScanf_of_lt {front : List Char} (hfront : ':' ∉ front) {body : List Char}
    (hlen : (front ++ ':' :: body).length < sLineSize) (fmt : List AtConv) :
    atTokScanf (front ++ ':' :: body) fmt = atTokScanfLoop fmt (some body) := by
  have hsize : sLineSize = 1024 := rfl
  have hpos : ∀ c ∈ front, decide (c ≠ ':') = true := fun c hc =>
    decide_eq_true fun heq => hfront (heq ▸ hc)
  rw [atTokScanf, List.take_of_length_le (by omega), atTokStart,
    List.dropWhile_append_of_pos hpos, List.dropWhile_cons_of_neg (by decide)]

/-- The conversion for a field with a value. -/
def AtField.conv : AtField → AtConv
  | .int _ => .d
  | .hex _ => .x
  | .str _ => .s
  | .placeholder => .d

/-- What is stored for a field with a value. -/
def AtField.value : AtField → Option AtVal
  | .int n => some (.int (intOf n))
  | .hex n => some (.int (hexOf n))
  | .str s => some (.str s)
  | .placeholder => none

theorem Item.conv_eq (i : Item) (h : i.field ≠ .placeholder) : i.conv = i.field.conv := by
  obtain ⟨blank, field, text, conv, hText, hreadBy⟩ := i
  cases field with
  | int n => exact hreadBy
  | hex n => exact hreadBy
  | str s => exact hreadBy
  | placeholder => exact absurd rfl h

theorem AtField.value_of_stored {f : AtField} (h : f ≠ .placeholder) {c : AtConv}
    {out : Option AtVal} (hout : f.Stored c out) : out = f.value := by
  cases f with
  | int n => exact hout
  | hex n => exact hout
  | str s => exact hout
  | placeholder => exact absurd rfl h

theorem AllStored.eq_values {items : List Item} {outs : List (Option AtVal)}
    (h : AllStored items outs) (hvalue : ∀ i ∈ items, i.field ≠ .placeholder) :
    outs = (items.map Item.field).map AtField.value := by
  induction h with
  | nil => rfl
  | @cons i out is outs hout hrest ih =>
      rw [List.map_cons, List.map_cons,
        AtField.value_of_stored (hvalue i (List.mem_cons_self ..)) hout,
        ih fun j hj => hvalue j (List.mem_cons_of_mem _ hj)]

/-- **The fields at the front of a line**, when each has a value and the format reads just them. -/
theorem atTokScanf_fields {front : List Char} (hfront : ':' ∉ front) {items : List Item}
    {fs : List AtField} (hfs : items.map Item.field = fs) (hne : fs ≠ [])
    (hvalue : ∀ f ∈ fs, f ≠ .placeholder) {rest : List Char} (hrest : Ends rest)
    (hlen : (front ++ ':' :: (joined items ++ rest)).length < sLineSize) :
    atTokScanf (front ++ ':' :: (joined items ++ rest)) (fs.map AtField.conv) =
      (fs.length, fs.map AtField.value) := by
  subst hfs
  have hitems : items ≠ [] := by
    rintro rfl
    exact hne rfl
  have hall : ∀ i ∈ items, i.field ≠ .placeholder :=
    fun i hi => hvalue _ (List.mem_map_of_mem hi)
  have hfmt : (items.map Item.field).map AtField.conv = items.map Item.conv := by
    rw [List.map_map]
    exact List.map_congr_left fun i hi => (i.conv_eq (hall i hi)).symm
  obtain ⟨outs, line, hstored, -, hloop⟩ :=
    atTokScanfLoop_items hitems (clear_of_forall hall) hrest []
  rw [List.append_nil] at hloop
  rw [atTokScanf_of_lt hfront hlen, hfmt, hloop, atTokScanfLoop, List.append_nil,
    hstored.eq_values hall, List.length_map]
  rfl

/-- Numbers are written without commas. -/
theorem Item.comma_notMem (i : Item) (h : ∀ s, i.field ≠ .str s) : ',' ∉ i.text := by
  obtain ⟨blank, field, text, conv, hText, hreadBy⟩ := i
  cases field with
  | int n => exact fun hc => ((DecText.plain hText).2 _ hc).2.2 rfl
  | hex n =>
      obtain ⟨digits, hdigits, rfl | rfl⟩ := hText
      · exact fun hc => (hdigits.plain _ hc).2.2 rfl
      · intro hc
        have hmem : ',' ∈ digits := by simpa [quoted] using hc
        exact (hdigits.plain _ hmem).2.2 rfl
  | str s => exact absurd rfl (h s)
  | placeholder =>
      obtain rfl : text = ['-'] := hText
      simp

/-- There is a comma between any two fields, and no other. -/
theorem count_comma_joined {items : List Item} (hne : items ≠ [])
    (h : ∀ i ∈ items, ',' ∉ i.text) : (joined items).count ',' + 1 = items.length := by
  induction items with
  | nil => exact absurd rfl hne
  | cons i is ih =>
      have hblanks : i.blanks.count ',' = 0 := by
        unfold Item.blanks
        split <;> rfl
      have htext : i.text.count ',' = 0 := List.count_eq_zero.2 (h i (List.mem_cons_self ..))
      by_cases hlast : is = []
      · subst hlast
        rw [joined, List.count_append, hblanks, htext]
        rfl
      · have hrest := ih hlast fun j hj => h j (List.mem_cons_of_mem _ hj)
        rw [← List.append_nil (joined (i :: is)), joined_cons i hlast, List.append_nil,
          List.count_append, List.count_append, List.count_cons_self, hblanks, htext,
          List.length_cons, ← hrest]
        omega

/-! ### The round trip -/

/-- The numbers are in the range of an `int`. -/
def AtField.InRange : AtField → Prop
  | .int n => -2 ^ 31 ≤ n ∧ n < 2 ^ 31
  | _ => True

/-- The value of a field has been stored. -/
def AtField.Holds : AtField → AtConv → Option AtVal → Prop
  | .int n, _, out => out = some (.int n)
  | f, c, out => f.Stored c out

theorem AtField.stored_iff_holds {f : AtField} (h : f.InRange) (c : AtConv)
    (out : Option AtVal) : f.Stored c out ↔ f.Holds c out := by
  cases f with
  | int n =>
      show out = some (.int (intOf n)) ↔ out = some (.int n)
      rw [intOf_eq h.1 h.2]
  | hex n => rfl
  | str s => rfl
  | placeholder => rfl

/-- What `at_tok_scanf` makes of a line with these fields, with a format that goes on with `extra`:
it counts the fields, stores their values, and stores nothing more. -/
def RoundTrip (items : List Item) (extra : List AtConv) (r : ℕ × List (Option AtVal)) : Prop :=
  r.1 = items.length ∧ ∃ outs, List.Forall₂ (fun i out => i.field.Holds i.conv out) items outs ∧
    r.2 = outs ++ extra.map fun _ => none

/-- **The fields of a line come back exactly when no placeholder for a number stands behind a blank
or at the end of the line.** -/
theorem roundTrip_iff {front : List Char} (hfront : ':' ∉ front) {items : List Item}
    (hrange : ∀ i ∈ items, i.field.InRange)
    (hlen : (front ++ ':' :: joined items).length < sLineSize) (extra : List AtConv) :
    RoundTrip items extra
        (atTokScanf (front ++ ':' :: joined items) (items.map Item.conv ++ extra)) ↔
      Clear items := by
  rw [atTokScanf_of_lt hfront hlen]
  constructor
  · rintro ⟨hcount, -⟩
    exact clear_of_count hcount.ge
  · intro hclear
    obtain ⟨outs, hstored, hloop⟩ := atTokScanfLoop_line hclear extra
    rw [hloop]
    refine ⟨rfl, outs, ?_, rfl⟩
    refine (List.forall₂_iff_get.2 ⟨hstored.length_eq, fun k hk hk' => ?_⟩)
    have hmem := hrange (items.get ⟨k, hk⟩) (List.get_mem ..)
    exact (AtField.stored_iff_holds hmem _ _).1 (hstored.get hk hk')

/-- A dash that is read with `%d`. -/
def dashItem (blank : Bool) : Item := ⟨blank, .placeholder, ['-'], .d, rfl, trivial⟩

theorem digits_hex : Digits 16 42 ['2', 'A'] :=
  ⟨List.cons_ne_nil _ _, List.forall_mem_cons.2 ⟨rfl, List.forall_mem_singleton.2 rfl⟩, rfl⟩

/-- `"a,b",-,2A, -5` -/
def mixedItems : List Item :=
  [⟨true, .str ['a', ',', 'b'], quoted ['a', ',', 'b'], .s, ⟨by decide, rfl⟩, rfl⟩,
    dashItem false,
    ⟨false, .hex 42, ['2', 'A'], .x, ⟨_, digits_hex, .inl rfl⟩, rfl⟩,
    ⟨true, .int (-5), '-' :: dec 5, .d, .inr ⟨5, dec 5, rfl, digits_dec 5, rfl⟩, rfl⟩]

/-- The format asks for one field more than the line has. -/
theorem roundTrip_mixedItems : RoundTrip mixedItems [.d]
    (atTokScanf ("+QENG".toList ++ ':' :: joined mixedItems)
      (mixedItems.map Item.conv ++ [.d])) := by
  refine (@roundTrip_iff "+QENG".toList (by decide) mixedItems ?_ (by decide +kernel) [.d]).2 ?_
  · intro i hi
    simp only [mixedItems, List.mem_cons, List.not_mem_nil, or_false] at hi
    rcases hi with rfl | rfl | rfl | rfl
    · trivial
    · trivial
    · trivial
    · exact ⟨by decide, by decide⟩
  · refine ⟨fun h => (by cases h), fun _ _ => ⟨rfl, List.cons_ne_nil _ _⟩, fun h => (by cases h),
      fun h => (by cases h), trivial⟩

/-- In `1,-` the second field is not counted. -/
theorem not_roundTrip : ¬ ∀ (front : List Char) (items : List Item) (extra : List AtConv),
    ':' ∉ front → (∀ i ∈ items, i.field.InRange) →
      (front ++ ':' :: joined items).length < sLineSize →
        RoundTrip items extra
          (atTokScanf (front ++ ':' :: joined items) (items.map Item.conv ++ extra)) := by
  intro hall
  have hrange : ∀ i ∈ [natItem true 1, dashItem false], i.field.InRange := by
    intro i hi
    simp only [List.mem_cons, List.not_mem_nil, or_false] at hi
    rcases hi with rfl | rfl
    · exact ⟨by decide, by decide⟩
    · trivial
  have hcount := (hall "+CPOS".toList [natItem true 1, dashItem false] [] (by decide) hrange
    (by decide +kernel)).1
  exact absurd hcount (by decide +kernel)

end Atc

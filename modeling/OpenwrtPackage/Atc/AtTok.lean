/-
**Reading the fields of an AT response.**

`at_tok.c` takes a response line apart: behind the first colon stand fields with commas between
them, each a number, or a string with or without quotes.

* `Atc.nextTok` — the next field, and where the line stands behind it;
* `Atc.atTokNextint`, `Atc.atTokNexthexint`, `Atc.atTokNextbool`, `Atc.atTokNextstr`;
* `Atc.atTokScanf` — `at_tok_scanf`, which reads a field for each conversion of its format;
* `Atc.nextTok_plain`, `Atc.nextTok_quoted` — a field that has been written is read back.

A line is a string without NULs.  A pointer into it is the rest of the line, and `NULL` is `none`.
-/
import OpenwrtPackage.Lib.Scan

set_option relaxedAutoImplicit false
set_option autoImplicit false

namespace Atc

open CScan

/-! ### Fields -/

/-- `strsep`: what stands in front of the first `delim`, and where the pointer is afterwards. -/
def strsep (delim : Char) (s : List Char) : List Char × Option (List Char) :=
  (s.takeWhile (· ≠ delim),
    match s.dropWhile (· ≠ delim) with
    | [] => none
    | _ :: rest => some rest)

/-- `skipNextComma` -/
def skipNextComma (s : List Char) : List Char := (s.dropWhile (· ≠ ',')).tail

/-- `nextTok`: the field, and `*p_cur`. -/
def nextTok : Option (List Char) → Option (List Char) × Option (List Char)
  | none => (none, none)
  | some cur =>
      match cur.dropWhile isspace with
      | '"' :: s =>
          let r := strsep '"' s
          (some r.1, r.2.map skipNextComma)
      | s =>
          let r := strsep ',' s
          (some r.1, r.2)

/-- A value that is stored through a pointer. -/
inductive AtVal where
  | int (n : ℤ)
  | char (n : ℤ)
  | str (s : List Char)
  deriving DecidableEq

/-- What a function of the `at_tok_next…` family does: whether it returns 0, what it stores, and
where the line stands. -/
structure AtRead where
  ok : Bool
  out : Option AtVal
  line : Option (List Char)

/-- `at_tok_nextint_base`.  The number is stored even when there was none. -/
def atTokNextintBase (base : ℕ) (uns : Bool) (line : Option (List Char)) : AtRead :=
  match nextTok line with
  | (none, rest) => ⟨false, none, rest⟩
  | (some ret, rest) =>
      let l := if uns then strtoul base ret else strtol base ret
      ⟨l.2, some (.int (toInt l.1)), rest⟩

/-- `at_tok_nextint` -/
def atTokNextint (line : Option (List Char)) : AtRead := atTokNextintBase 10 false line

/-- `at_tok_nexthexint` -/
def atTokNexthexint (line : Option (List Char)) : AtRead := atTokNextintBase 16 true line

/-- `at_tok_nextbool` -/
def atTokNextbool (line : Option (List Char)) : AtRead :=
  match atTokNextint line with
  | ⟨true, some (.int n), rest⟩ =>
      if n = 0 ∨ n = 1 then ⟨true, some (.char n), rest⟩ else ⟨false, none, rest⟩
  | r => ⟨false, none, r.line⟩

/-- `at_tok_nextstr` -/
def atTokNextstr (line : Option (List Char)) : AtRead :=
  match nextTok line with
  | (none, rest) => ⟨false, none, rest⟩
  | (some ret, rest) => ⟨true, some (.str ret), rest⟩

/-! ### Formats -/

/-- A conversion of a format; commas and blanks between them are skipped. -/
inductive AtConv where
  | d
  | x
  | b
  | s
  deriving DecidableEq

/-- The conversion `c`. -/
def AtConv.next : AtConv → Option (List Char) → AtRead
  | .d => atTokNextint
  | .x => atTokNexthexint
  | .b => atTokNextbool
  | .s => atTokNextstr

/-- The loop of `at_tok_scanf`: the number of fields that have been read, and what is stored for
each conversion. -/
def atTokScanfLoop : List AtConv → Option (List Char) → ℕ × List (Option AtVal)
  | [], _ => (0, [])
  | c :: fmt, line =>
      match line with
      | none => (0, none :: fmt.map fun _ => none)
      | some [] => (0, none :: fmt.map fun _ => none)
      | some ('-' :: ',' :: rest) =>
          let r := atTokScanfLoop fmt (some rest)
          (r.1 + 1, (if c = .d then some (.int (-1)) else none) :: r.2)
      | some s =>
          let r := c.next (some s)
          if r.ok then
            let q := atTokScanfLoop fmt r.line
            (q.1 + 1, r.out :: q.2)
          else (0, r.out :: fmt.map fun _ => none)

/-- `at_tok_start`: behind the first colon. -/
def atTokStart (line : List Char) : Option (List Char) :=
  match line.dropWhile (· ≠ ':') with
  | [] => none
  | _ :: rest => some rest

/-- `sizeof(s_line)` -/
def sLineSize : ℕ := 1024

/-- `at_tok_scanf`: the result, and what is stored for each conversion. -/
def atTokScanf (inLine : List Char) (fmt : List AtConv) : ℕ × List (Option AtVal) :=
  match atTokStart (inLine.take (sLineSize - 1)) with
  | none => (0, fmt.map fun _ => none)
  | some line => atTokScanfLoop fmt (some line)

/-- An `int` that the conversion `i` stores into, with the value `old`. -/
def intOut (r : ℕ × List (Option AtVal)) (i : ℕ) (old : ℤ) : ℤ :=
  match r.2.getD i none with
  | some (.int n) => n
  | _ => old

/-- A `char *` that is `NULL` before. -/
def strOut (r : ℕ × List (Option AtVal)) (i : ℕ) : Option (List Char) :=
  match r.2.getD i none with
  | some (.str s) => some s
  | _ => none

/-! ### Reading a field back -/

/-- What may stand behind a field: nothing, or a comma and more. -/
def Ends (rest : List Char) : Prop := ∀ c ∈ rest.head?, c = ','

theorem Ends.take {rest : List Char} (h : Ends rest) (n : ℕ) : Ends (rest.take n) := by
  intro c hc
  cases n with
  | zero => cases hc
  | succ n =>
      cases rest with
      | nil => cases hc
      | cons x rest => exact h c hc

theorem strsep_append {delim : Char} {t rest : List Char} (ht : delim ∉ t)
    (hrest : ∀ c ∈ rest.head?, c = delim) :
    strsep delim (t ++ rest) = (t, if rest = [] then none else some rest.tail) := by
  have hpos : ∀ c ∈ t, decide (c ≠ delim) = true := fun c hc =>
    decide_eq_true fun heq => ht (heq ▸ hc)
  rw [strsep, List.takeWhile_append_of_pos hpos, List.dropWhile_append_of_pos hpos]
  cases rest with
  | nil => simp
  | cons c rest =>
      obtain rfl : c = delim := hrest c rfl
      simp

/-- A field without quotes. -/
theorem nextTok_plain {blanks t rest : List Char} (hblanks : ∀ c ∈ blanks, isspace c = true)
    (hne : t ≠ []) (ht : ∀ c ∈ t, isspace c = false ∧ c ≠ '"' ∧ c ≠ ',') (hrest : Ends rest) :
    nextTok (some (blanks ++ (t ++ rest))) =
      (some t, if rest = [] then none else some rest.tail) := by
  obtain ⟨x, xs, rfl⟩ := List.exists_cons_of_ne_nil hne
  obtain ⟨hspace, hquote, -⟩ := ht x (List.mem_cons_self ..)
  have hcomma : ',' ∉ x :: xs := fun hc => (ht ',' hc).2.2 rfl
  have hskip : (blanks ++ (x :: xs ++ rest)).dropWhile isspace = x :: xs ++ rest := by
    rw [List.dropWhile_append_of_pos hblanks, List.cons_append]
    exact List.dropWhile_cons_of_neg (by rw [hspace]; decide)
  have hsep := strsep_append hcomma hrest
  unfold nextTok
  dsimp only
  rw [hskip]
  split
  · next heq => exact absurd (List.cons.inj heq).1 hquote
  · rw [hsep]

/-- A field in quotes. -/
theorem nextTok_quoted {blanks t rest : List Char} (hblanks : ∀ c ∈ blanks, isspace c = true)
    (ht : '"' ∉ t) (hrest : Ends rest) :
    nextTok (some (blanks ++ '"' :: (t ++ '"' :: rest))) = (some t, some rest.tail) := by
  have hskip : (blanks ++ '"' :: (t ++ '"' :: rest)).dropWhile isspace =
      '"' :: (t ++ '"' :: rest) := by
    rw [List.dropWhile_append_of_pos hblanks]
    rfl
  have hsep := @strsep_append '"' t ('"' :: rest) ht (by simp)
  have hnext : skipNextComma rest = rest.tail := by
    cases rest with
    | nil => rfl
    | cons c rest =>
        obtain rfl : c = ',' := hrest c rfl
        rfl
  unfold nextTok
  dsimp only
  rw [hskip]
  show (some (strsep '"' (t ++ '"' :: rest)).1,
    (strsep '"' (t ++ '"' :: rest)).2.map skipNextComma) = _
  rw [hsep, if_neg (List.cons_ne_nil _ _), Option.map_some, List.tail_cons, hnext]

/-- At the end of the line nothing is left to read. -/
theorem atTokScanfLoop_end {line : Option (List Char)} (h : line = none ∨ line = some [])
    (fmt : List AtConv) : atTokScanfLoop fmt line = (0, fmt.map fun _ => none) := by
  cases fmt with
  | nil => rfl
  | cons c fmt => rcases h with rfl | rfl <;> rfl

/-- A conversion of what is no placeholder. -/
theorem atTokScanfLoop_next (c : AtConv) {s : List Char} (fmt : List AtConv) (hne : s ≠ [])
    (hdash : ∀ rest, s ≠ '-' :: ',' :: rest) :
    atTokScanfLoop (c :: fmt) (some s) =
      if (c.next (some s)).ok then
        ((atTokScanfLoop fmt (c.next (some s)).line).1 + 1,
          (c.next (some s)).out :: (atTokScanfLoop fmt (c.next (some s)).line).2)
      else (0, (c.next (some s)).out :: fmt.map fun _ => none) := by
  conv => lhs; unfold atTokScanfLoop
  split
  · next heq => cases heq
  · next heq => exact absurd (Option.some.inj heq) hne
  · next heq => exact absurd (Option.some.inj heq) (hdash _)
  · next heq =>
      obtain rfl := Option.some.inj heq
      rfl

/-- A conversion that succeeds. -/
theorem atTokScanfLoop_of_ok {c : AtConv} {s : List Char} {out : Option AtVal}
    {line : Option (List Char)} (fmt : List AtConv) (hne : s ≠ [])
    (hdash : ∀ rest, s ≠ '-' :: ',' :: rest) (h : c.next (some s) = ⟨true, out, line⟩) :
    atTokScanfLoop (c :: fmt) (some s) =
      ((atTokScanfLoop fmt line).1 + 1, out :: (atTokScanfLoop fmt line).2) := by
  rw [atTokScanfLoop_next c fmt hne hdash, h]
  rfl

/-- A placeholder with a comma behind it. -/
theorem atTokScanfLoop_placeholder (c : AtConv) (fmt : List AtConv) (rest : List Char) :
    atTokScanfLoop (c :: fmt) (some ('-' :: ',' :: rest)) =
      ((atTokScanfLoop fmt (some rest)).1 + 1,
        (if c = .d then some (.int (-1)) else none) :: (atTokScanfLoop fmt (some rest)).2) := rfl

/-- The loop of a line that is not cut in front of `rest`. -/
theorem atTokScanf_append {front body rest : List Char} (hfront : ':' ∉ front)
    (hlen : front.length + body.length < sLineSize - 1) (hrest : Ends rest) (fmt : List AtConv) :
    ∃ rest', Ends rest' ∧ atTokScanf (front ++ ':' :: (body ++ rest)) fmt =
      atTokScanfLoop fmt (some (body ++ rest')) := by
  have hsize : sLineSize - 1 = 1023 := rfl
  refine ⟨rest.take (1023 - front.length - 1 - body.length), hrest.take _, ?_⟩
  have hcut : (front ++ ':' :: (body ++ rest)).take (sLineSize - 1) =
      front ++ ':' :: (body ++ rest.take (1023 - front.length - 1 - body.length)) := by
    rw [hsize, List.take_append, List.take_of_length_le (by omega),
      show 1023 - front.length = (1023 - front.length - 1) + 1 by omega, List.take_succ_cons,
      List.take_append, List.take_of_length_le (by omega), Nat.add_sub_cancel]
  have hpos : ∀ c ∈ front, decide (c ≠ ':') = true := fun c hc =>
    decide_eq_true fun heq => hfront (heq ▸ hc)
  have hstart : atTokStart (front ++
      ':' :: (body ++ rest.take (1023 - front.length - 1 - body.length))) =
        some (body ++ rest.take (1023 - front.length - 1 - body.length)) := by
    unfold atTokStart
    rw [List.dropWhile_append_of_pos hpos, List.dropWhile_cons_of_neg (by decide)]
  rw [atTokScanf, hcut, hstart]

end Atc

/-
**Filters on text files.**

`grep` and `sed` look at a file line by line: `grep` selects the lines that contain a text, and
`sed '/text/d'` writes all others back.  A line that is appended to a file is a line of its own only
when a newline ends the file.

* `Grep.texts`, `Grep.Ended` — the lines of a file without their newlines, and a file that can be
  appended to;
* `Grep.texts_append_of_ended`, `Grep.texts_append_of_not_ended` — what becomes of the lines;
* `Grep.deleteLines` — `sed`, with `Grep.linesOf_deleteLines` and
  `Grep.deleteLines_append_of_ended`;
* `Grep.count`, `Grep.countWord` — `grep` and `grep -w`, with `Grep.count_append_of_newline`;
* `Grep.hasWord_iff`, `Grep.hasWord_separated`, `Grep.countWord_ne_zero_iff` — where a word stands.
-/
import OpenwrtPackage.Lib.TextFile
import Mathlib.Data.List.Infix

set_option relaxedAutoImplicit false
set_option autoImplicit false

namespace Grep

open TextFile

/-! ### Lines -/

/-- The lines of a file, without their newlines. -/
def texts (s : List Char) : List (List Char) := (linesOf s).map Line.text

/-- A file that is empty or ends with a newline. -/
def Ended (s : List Char) : Prop := s = [] ∨ s.getLast? = some '\n'

instance (s : List Char) : Decidable (Ended s) := inferInstanceAs (Decidable (_ ∨ _))

theorem not_mem_of_mem_texts {s t : List Char} (h : t ∈ texts s) : '\n' ∉ t := by
  obtain ⟨l, hl, rfl⟩ := List.mem_map.1 h
  have hfile := isFile_linesOf s
  revert hl hfile
  induction linesOf s with
  | nil =>
      intro hl
      cases hl
  | cons l' ls ih =>
      intro hl hfile
      rcases List.mem_cons.1 hl with rfl | hl
      · exact hfile.1
      · exact ih hl hfile.2.2

theorem linesOf_append_of_newline (a b : List Char) :
    linesOf (a ++ '\n' :: b) = linesOf (a ++ ['\n']) ++ linesOf b := by
  induction a with
  | nil =>
      rw [List.nil_append, linesOf, if_pos rfl]
      rfl
  | cons c a ih =>
      rw [List.cons_append, List.cons_append, linesOf, linesOf, ih]
      by_cases hc : c = '\n'
      · rw [if_pos hc, if_pos hc]
        rfl
      · rw [if_neg hc, if_neg hc]
        cases hlines : linesOf (a ++ ['\n']) with
        | nil =>
            have hempty := flatMap_raw_linesOf (a ++ ['\n'])
            rw [hlines] at hempty
            exact absurd hempty.symm (by simp)
        | cons l ls => rfl

/-- Behind a newline the lines are those of what is appended. -/
theorem linesOf_append_of_ended {a : List Char} (h : Ended a) (b : List Char) :
    linesOf (a ++ b) = linesOf a ++ linesOf b := by
  rcases h with rfl | h
  · rfl
  · obtain ⟨t, rfl⟩ := List.getLast?_eq_some_iff.1 h
    rw [List.append_assoc, List.singleton_append, linesOf_append_of_newline]

theorem texts_append_of_ended {a : List Char} (h : Ended a) (b : List Char) :
    texts (a ++ b) = texts a ++ texts b := by
  rw [texts, linesOf_append_of_ended h, List.map_append]
  rfl

theorem texts_line {t : List Char} (ht : '\n' ∉ t) : texts (t ++ ['\n']) = [t] := by
  rw [texts, linesOf_append_newline ht]
  rfl

theorem texts_of_not_mem {t : List Char} (ht : '\n' ∉ t) (hne : t ≠ []) : texts t = [t] := by
  rw [texts, linesOf_of_not_mem ht hne]
  rfl

/-- A file that does not end with a newline has a last line without one. -/
theorem exists_last_line {a : List Char} (h : ¬ Ended a) :
    ∃ front g, a = front ++ g ∧ Ended front ∧ g ≠ [] ∧ '\n' ∉ g := by
  rw [Ended, not_or] at h
  obtain ⟨hne, hlast⟩ := h
  by_cases hmem : '\n' ∈ a
  · -- The last line stands behind the last newline.
    obtain ⟨u, v, huv, hu⟩ := List.eq_append_cons_of_mem (List.mem_reverse.2 hmem)
    have ha : a = (v.reverse ++ ['\n']) ++ u.reverse := by
      rw [← List.reverse_reverse a, huv, List.reverse_append, List.reverse_cons]
    refine ⟨v.reverse ++ ['\n'], u.reverse, ha, .inr List.getLast?_concat, ?_, ?_⟩
    · intro hnil
      rw [hnil, List.append_nil] at ha
      rw [ha] at hlast
      exact hlast List.getLast?_concat
    · rwa [List.mem_reverse]
  · exact ⟨[], a, rfl, .inl rfl, hne, hmem⟩

/-- Without a newline at its end, the last line of a file goes on with what is appended. -/
theorem texts_append_of_not_ended {a t : List Char} (h : ¬ Ended a) (ht : '\n' ∉ t) :
    ∃ ls g, g ≠ [] ∧ texts a = ls ++ [g] ∧ texts (a ++ (t ++ ['\n'])) = ls ++ [g ++ t] := by
  obtain ⟨front, g, rfl, hfront, hne, hg⟩ := exists_last_line h
  have hlong : '\n' ∉ g ++ t := by
    rw [List.mem_append, not_or]
    exact ⟨hg, ht⟩
  refine ⟨texts front, g, hne, ?_, ?_⟩
  · rw [texts_append_of_ended hfront, texts_of_not_mem hg hne]
  · rw [List.append_assoc, ← List.append_assoc g, texts_append_of_ended hfront, texts_line hlong]

/-! ### `sed` -/

/-- `sed -i '/pattern/d'` for a pattern that stands for itself. -/
def deleteLines (pattern s : List Char) : List Char :=
  ((linesOf s).filter fun l => ¬ pattern <:+: l.text).flatMap Line.raw

theorem isFile_filter {ls : List Line} (h : IsFile ls) (p : Line → Bool) :
    IsFile (ls.filter p) := by
  induction ls with
  | nil => exact h
  | cons l ls ih =>
      obtain ⟨hl, hended, hls⟩ := h
      rw [List.filter_cons]
      split
      · refine ⟨hl, hended.imp_right ?_, ih hls⟩
        rintro ⟨hne, rfl⟩
        exact ⟨hne, rfl⟩
      · exact ih hls

theorem linesOf_deleteLines (pattern s : List Char) :
    linesOf (deleteLines pattern s) = (linesOf s).filter fun l => ¬ pattern <:+: l.text :=
  linesOf_flatMap_raw (isFile_filter (isFile_linesOf s) _)

/-- What `sed` leaves does not contain the pattern. -/
theorem not_infix_of_mem_texts {pattern s t : List Char}
    (h : t ∈ texts (deleteLines pattern s)) : ¬ pattern <:+: t := by
  rw [texts, linesOf_deleteLines] at h
  obtain ⟨l, hl, rfl⟩ := List.mem_map.1 h
  simpa using (List.mem_filter.1 hl).2

/-- A file without the pattern stays as it is. -/
theorem deleteLines_eq_self {pattern s : List Char} (h : ∀ t ∈ texts s, ¬ pattern <:+: t) :
    deleteLines pattern s = s := by
  have hall : (linesOf s).filter (fun l => ¬ pattern <:+: l.text) = linesOf s := by
    rw [List.filter_eq_self]
    intro l hl
    exact decide_eq_true (h l.text (List.mem_map_of_mem hl))
  rw [deleteLines, hall, flatMap_raw_linesOf]

theorem deleteLines_append_of_ended (pattern : List Char) {a : List Char} (h : Ended a)
    (b : List Char) :
    deleteLines pattern (a ++ b) = deleteLines pattern a ++ deleteLines pattern b := by
  rw [deleteLines, linesOf_append_of_ended h, List.filter_append, List.flatMap_append]
  rfl

/-- A line with the pattern is deleted. -/
theorem deleteLines_line {pattern t : List Char} (ht : '\n' ∉ t) (hpattern : pattern <:+: t) :
    deleteLines pattern (t ++ ['\n']) = [] := by
  have hnone : [endedLine t].filter (fun l => ¬ pattern <:+: l.text) = [] := by
    rw [List.filter_eq_nil_iff]
    intro l hl
    rw [List.mem_singleton.1 hl, decide_eq_true_iff, not_not]
    exact hpattern
  have hlines : linesOf (t ++ ['\n']) = [endedLine t] := linesOf_append_newline ht []
  rw [deleteLines, hlines, hnone]
  rfl

/-! ### `grep` -/

/-- `grep pattern | wc -l` for a pattern that stands for itself. -/
def count (pattern s : List Char) : ℕ := (linesOf s).countP fun l => pattern <:+: l.text

theorem count_append_of_ended (pattern : List Char) {a : List Char} (h : Ended a) (b : List Char) :
    count pattern (a ++ b) = count pattern a + count pattern b := by
  rw [count, linesOf_append_of_ended h, List.countP_append]
  rfl

theorem ended_concat (a : List Char) : Ended (a ++ ['\n']) := .inr List.getLast?_concat

theorem ended_append {a b : List Char} (ha : Ended a) (hb : Ended b) : Ended (a ++ b) := by
  rcases hb with rfl | hb
  · rwa [List.append_nil]
  · obtain ⟨t, rfl⟩ := List.getLast?_eq_some_iff.1 hb
    rw [← List.append_assoc]
    exact ended_concat _

/-- The texts of a list, one behind the other. -/
theorem ended_flatMap {α : Type*} {f : α → List Char} (h : ∀ x, Ended (f x)) (xs : List α) :
    Ended (xs.flatMap f) := by
  induction xs with
  | nil => exact .inl rfl
  | cons x xs ih =>
      rw [List.flatMap_cons]
      exact ended_append (h x) ih

theorem count_nil (pattern : List Char) : count pattern [] = 0 := rfl

/-- When each of the texts has the pattern on one line or on none, as many lines have it as there
are texts with it. -/
theorem count_flatMap {α : Type*} {f : α → List Char} (hended : ∀ x, Ended (f x))
    {pattern : List Char} {p : α → Bool}
    (h : ∀ x, count pattern (f x) = if p x = true then 1 else 0) (xs : List α) :
    count pattern (xs.flatMap f) = xs.countP p := by
  induction xs with
  | nil => rfl
  | cons x xs ih =>
      rw [List.flatMap_cons, count_append_of_ended pattern (hended x), h, ih, List.countP_cons,
        Nat.add_comm]

/-- A line is a part of the file. -/
theorem infix_of_mem_linesOf {s : List Char} {l : Line} (h : l ∈ linesOf s) : l.text <:+: s := by
  have hraw : l.raw <:+: s := by
    have hall : l.raw <:+: (linesOf s).flatMap Line.raw := by
      obtain ⟨front, back, hsplit⟩ := List.append_of_mem h
      rw [hsplit, List.flatMap_append, List.flatMap_cons]
      exact List.infix_append' _ _ _
    rwa [flatMap_raw_linesOf] at hall
  exact (List.prefix_append l.text _).isInfix.trans hraw

/-- A file without the pattern has no line with it. -/
theorem count_eq_zero {pattern s : List Char} (h : ¬ pattern <:+: s) : count pattern s = 0 := by
  rw [count, List.countP_eq_zero]
  intro l hl hmem
  exact h ((of_decide_eq_true hmem).trans (infix_of_mem_linesOf hl))

/-! ### Words -/

/-- The front of the text is the word, and a separator or nothing is behind it. -/
def startsWord (sep : Char → Bool) (word t : List Char) : Bool :=
  word.isPrefixOf t && ((t.drop word.length).head?.all sep)

/-- The word stands somewhere between separators; `free` says that there is one in front. -/
def hasWordFrom (sep : Char → Bool) (word : List Char) : Bool → List Char → Bool
  | free, [] => free && startsWord sep word []
  | free, c :: t => (free && startsWord sep word (c :: t)) || hasWordFrom sep word (sep c) t

/-- The word stands somewhere between separators, or at an end of the text. -/
def hasWord (sep : Char → Bool) (word t : List Char) : Bool := hasWordFrom sep word true t

theorem startsWord_iff {sep : Char → Bool} {word t : List Char} :
    startsWord sep word t = true ↔ ∃ b, t = word ++ b ∧ ∀ c ∈ b.head?, sep c = true := by
  rw [startsWord, Bool.and_eq_true, List.isPrefixOf_iff_prefix]
  constructor
  · rintro ⟨⟨b, rfl⟩, hb⟩
    rw [List.drop_left, Option.all_eq_true] at hb
    exact ⟨b, rfl, hb⟩
  · rintro ⟨b, rfl, hb⟩
    refine ⟨List.prefix_append word b, ?_⟩
    rw [List.drop_left, Option.all_eq_true]
    exact hb

theorem hasWordFrom_iff {sep : Char → Bool} {word : List Char} (free : Bool) (t : List Char) :
    hasWordFrom sep word free t = true ↔
      ∃ a b, t = a ++ (word ++ b) ∧ (a = [] → free = true) ∧ (∀ c ∈ a.getLast?, sep c = true) ∧
        ∀ c ∈ b.head?, sep c = true := by
  induction t generalizing free with
  | nil =>
      rw [hasWordFrom, Bool.and_eq_true, startsWord_iff]
      constructor
      · rintro ⟨hfree, b, hb, hsep⟩
        exact ⟨[], b, hb, fun _ => hfree, by rintro c ⟨⟩, hsep⟩
      · rintro ⟨a, b, hab, hfree, -, hsep⟩
        obtain ⟨rfl, hb⟩ := List.append_eq_nil_iff.1 hab.symm
        exact ⟨hfree rfl, b, hb.symm, hsep⟩
  | cons c t ih =>
      rw [hasWordFrom, Bool.or_eq_true, Bool.and_eq_true, startsWord_iff, ih]
      constructor
      · rintro (⟨hfree, b, hb, hsep⟩ | ⟨a, b, rfl, hfree, hlast, hsep⟩)
        · exact ⟨[], b, hb, fun _ => hfree, by rintro c ⟨⟩, hsep⟩
        · refine ⟨c :: a, b, rfl, by rintro ⟨⟩, ?_, hsep⟩
          intro d hd
          cases a with
          | nil =>
              cases hd
              exact hfree rfl
          | cons e a =>
              rw [List.getLast?_cons_cons] at hd
              exact hlast d hd
      · rintro ⟨a, b, hab, hfree, hlast, hsep⟩
        cases a with
        | nil => exact .inl ⟨hfree rfl, b, hab, hsep⟩
        | cons e a =>
            obtain ⟨rfl, rfl⟩ := List.cons.inj hab
            refine .inr ⟨a, b, rfl, ?_, ?_, hsep⟩
            · rintro rfl
              exact hlast c rfl
            · intro d hd
              refine hlast d ?_
              cases a with
              | nil => cases hd
              | cons e a => rwa [List.getLast?_cons_cons]

/-- Where a word stands. -/
theorem hasWord_iff {sep : Char → Bool} {word t : List Char} :
    hasWord sep word t = true ↔
      ∃ a b, t = a ++ (word ++ b) ∧ (∀ c ∈ a.getLast?, sep c = true) ∧
        ∀ c ∈ b.head?, sep c = true := by
  rw [hasWord, hasWordFrom_iff]
  constructor
  · rintro ⟨a, b, h, -, hlast, hsep⟩
    exact ⟨a, b, h, hlast, hsep⟩
  · rintro ⟨a, b, h, hlast, hsep⟩
    exact ⟨a, b, h, fun _ => rfl, hlast, hsep⟩

/-- A word is still one when separators are put around the text. -/
theorem hasWord_append {sep : Char → Bool} {word x t y : List Char}
    (hx : ∀ c ∈ x.getLast?, sep c = true) (hy : ∀ c ∈ y.head?, sep c = true)
    (h : hasWord sep word t = true) : hasWord sep word (x ++ (t ++ y)) = true := by
  obtain ⟨a, b, rfl, ha, hb⟩ := hasWord_iff.1 h
  refine hasWord_iff.2 ⟨x ++ a, b ++ y, by simp only [List.append_assoc], ?_, ?_⟩
  · intro c hc
    rw [List.getLast?_append] at hc
    cases hlast : a.getLast? with
    | none =>
        rw [hlast] at hc
        exact hx c hc
    | some d =>
        rw [hlast] at hc
        cases hc
        exact ha c hlast
  · intro c hc
    rw [List.head?_append] at hc
    cases hhead : b.head? with
    | none =>
        rw [hhead] at hc
        exact hy c hc
    | some d =>
        rw [hhead] at hc
        cases hc
        exact hb c hhead

/-- No word goes over a separator: it stands on one side of it or on the other. -/
theorem hasWord_separated {sep : Char → Bool} {word : List Char} (hne : word ≠ [])
    (hword : ∀ c ∈ word, sep c = false) {d : Char} (hd : sep d = true) (x y : List Char) :
    hasWord sep word (x ++ d :: y) = true ↔
      hasWord sep word x = true ∨ hasWord sep word y = true := by
  have hmem : d ∉ word := by
    intro hmem
    rw [hword d hmem] at hd
    cases hd
  constructor
  · intro h
    obtain ⟨a, b, hab, ha, hb⟩ := hasWord_iff.1 h
    rcases List.append_eq_append_iff.1 hab with ⟨a', rfl, htail⟩ | ⟨c', rfl, htail⟩
    · -- The word begins behind the front part.
      cases a' with
      | nil =>
          obtain ⟨c, word, rfl⟩ := List.exists_cons_of_ne_nil hne
          exact absurd ((List.cons.inj htail).1 ▸ List.mem_cons_self ..) hmem
      | cons c a' =>
          obtain ⟨rfl, rfl⟩ := List.cons.inj htail
          refine .inr (hasWord_iff.2 ⟨a', b, rfl, ?_, hb⟩)
          intro e he
          refine ha e ?_
          rw [List.getLast?_append, List.getLast?_cons, he]
          rfl
    · -- It begins inside of the front part, and ends there.
      rcases List.append_eq_append_iff.1 htail with ⟨e, rfl, rfl⟩ | ⟨e, rfl, hback⟩
      · refine .inl (hasWord_iff.2 ⟨a, e, rfl, ha, ?_⟩)
        intro c hc
        refine hb c ?_
        rw [List.head?_append, hc]
        rfl
      · cases e with
        | nil =>
            refine .inl (hasWord_iff.2 ⟨a, [], by rw [List.append_nil, List.append_nil], ha, ?_⟩)
            rintro c ⟨⟩
        | cons c e =>
            obtain ⟨rfl, -⟩ := List.cons.inj hback
            exact absurd (List.mem_append_right _ (List.mem_cons_self ..)) hmem
  · rintro (h | h)
    · refine @hasWord_append sep word [] x (d :: y) (by rintro c ⟨⟩) ?_ h
      rintro c ⟨⟩
      exact hd
    · have hback := @hasWord_append sep word (x ++ [d]) y [] ?_ (by rintro c ⟨⟩) h
      · rwa [List.append_nil, List.append_assoc] at hback
      · intro c hc
        rw [List.getLast?_concat] at hc
        cases hc
        exact hd

theorem hasWord_nil {sep : Char → Bool} {word : List Char} (hne : word ≠ []) :
    ¬ hasWord sep word [] = true := by
  intro h
  obtain ⟨a, b, hab, -, -⟩ := hasWord_iff.1 h
  exact hne (List.append_eq_nil_iff.1 (List.append_eq_nil_iff.1 hab.symm).2).1

/-- A separator in front of the text does not matter. -/
theorem hasWord_cons {sep : Char → Bool} {word : List Char} (hne : word ≠ [])
    (hword : ∀ c ∈ word, sep c = false) {d : Char} (hd : sep d = true) (y : List Char) :
    hasWord sep word (d :: y) = true ↔ hasWord sep word y = true := by
  rw [← List.nil_append (d :: y), hasWord_separated hne hword hd, or_iff_right (hasWord_nil hne)]

/-- A separator behind the text does not matter. -/
theorem hasWord_concat {sep : Char → Bool} {word : List Char} (hne : word ≠ [])
    (hword : ∀ c ∈ word, sep c = false) {d : Char} (hd : sep d = true) (x : List Char) :
    hasWord sep word (x ++ [d]) = true ↔ hasWord sep word x = true := by
  rw [hasWord_separated hne hword hd, or_iff_left (hasWord_nil hne)]

/-- A character that `grep` takes as a part of a word. -/
def isWordChar (c : Char) : Bool := c.isAlphanum || c = '_'

/-- A character that ends a word. -/
def isSeparator (c : Char) : Bool := !isWordChar c

theorem isSeparator_eq_false {word : List Char} (hword : ∀ c ∈ word, isWordChar c = true) :
    ∀ c ∈ word, isSeparator c = false := by
  intro c hc
  rw [isSeparator, hword c hc]
  rfl

/-- `grep -w word | wc -l` -/
def countWord (word s : List Char) : ℕ :=
  (linesOf s).countP fun l => hasWord isSeparator word l.text

/-- A word of a file is a word of one of its lines. -/
theorem hasWord_flatMap_raw {sep : Char → Bool} {word : List Char} (hne : word ≠ [])
    (hword : ∀ c ∈ word, sep c = false) (hnewline : sep '\n' = true) {ls : List Line}
    (h : IsFile ls) :
    hasWord sep word (ls.flatMap Line.raw) = true ↔ ∃ l ∈ ls, hasWord sep word l.text = true := by
  induction ls with
  | nil =>
      refine iff_of_false (hasWord_nil hne) ?_
      rintro ⟨l, hl, -⟩
      cases hl
  | cons l ls ih =>
      obtain ⟨-, hended, hls⟩ := h
      rw [List.flatMap_cons, Line.raw, List.exists_mem_cons_iff, ← ih hls]
      rcases hended with hended | ⟨-, rfl⟩
      · rw [hended, if_pos rfl, List.append_assoc]
        exact hasWord_separated hne hword hnewline l.text _
      · rw [List.flatMap_nil, List.append_nil, or_iff_left (hasWord_nil hne)]
        split
        · exact hasWord_concat hne hword hnewline l.text
        · rw [List.append_nil]

/-- **`grep -w` finds a word exactly when it is a word of the file.** -/
theorem countWord_ne_zero_iff {word : List Char} (hne : word ≠ [])
    (hword : ∀ c ∈ word, isWordChar c = true) (s : List Char) :
    countWord word s ≠ 0 ↔ hasWord isSeparator word s = true := by
  have hlines := hasWord_flatMap_raw hne (isSeparator_eq_false hword) rfl (isFile_linesOf s)
  rw [flatMap_raw_linesOf] at hlines
  rw [hlines, countWord, Ne, List.countP_eq_zero]
  simp only [not_forall, not_not, exists_prop]

end Grep

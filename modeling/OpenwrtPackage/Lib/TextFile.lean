/-
**Text files and `fgets`.**

A text file is a list of lines, each ended by a newline but perhaps the last.  `fgets` reads a
file by its lines too, but never more characters at once than its buffer holds: a long line comes
in several pieces, and a newline that no longer fits is a piece of its own.

* `TextFile.linesOf` — the lines of a file, with `TextFile.flatMap_raw_linesOf` and
  `TextFile.linesOf_flatMap_raw`: **the lines are the file**;
* `TextFile.fgets`, `TextFile.pieces` — one read, and all reads up to the end of the file;
* `TextFile.pieces_eq_flatMap` — **no piece reaches over the end of a line**;
* `TextFile.pieces_raw_of_le`, `TextFile.pieces_raw_of_eq` — a line that fits is one piece, a line
  whose newline does not fit is two.
-/
import Mathlib.Data.List.Basic
import Mathlib.Order.Nat

set_option relaxedAutoImplicit false
set_option autoImplicit false

namespace TextFile

/-! ### The lines of a file -/

/-- A line: its text, and whether a newline ends it. -/
structure Line where
  text : List Char
  ended : Bool
  deriving DecidableEq, Repr

/-- The characters of a line, its newline included. -/
def Line.raw (l : Line) : List Char := l.text ++ if l.ended then ['\n'] else []

/-- A line that a newline ends. -/
def endedLine (text : List Char) : Line := ⟨text, true⟩

@[simp] theorem endedLine_text (text : List Char) : (endedLine text).text = text := rfl

@[simp] theorem endedLine_raw (text : List Char) : (endedLine text).raw = text ++ ['\n'] := rfl

/-- The lines of a file. -/
def linesOf : List Char → List Line
  | [] => []
  | c :: s =>
      if c = '\n' then endedLine [] :: linesOf s
      else match linesOf s with
        | [] => [⟨[c], false⟩]
        | l :: ls => ⟨c :: l.text, l.ended⟩ :: ls

/-- What the lines of a file are like: only the last one may lack its newline, and then it is not
empty. -/
def IsFile : List Line → Prop
  | [] => True
  | l :: ls => '\n' ∉ l.text ∧ (l.ended = true ∨ l.text ≠ [] ∧ ls = []) ∧ IsFile ls

theorem IsFile.raw_ne_nil {l : Line} {ls : List Line} (h : IsFile (l :: ls)) : l.raw ≠ [] := by
  obtain ⟨-, hended | ⟨htext, -⟩, -⟩ := h
  · simp [Line.raw, hended]
  · simp [Line.raw, htext]

theorem isFile_append_ended {ls : List Line} (hls : IsFile ls) :
    ∀ {texts : List (List Char)}, (∀ t ∈ texts, '\n' ∉ t) → IsFile (texts.map endedLine ++ ls)
  | [], _ => hls
  | t :: _, h =>
      ⟨h t (List.mem_cons_self ..), Or.inl rfl,
        isFile_append_ended hls fun t' ht' => h t' (List.mem_cons_of_mem _ ht')⟩

theorem isFile_map_ended {texts : List (List Char)} (h : ∀ t ∈ texts, '\n' ∉ t) :
    IsFile (texts.map endedLine) := by
  have := @isFile_append_ended [] trivial _ h
  rwa [List.append_nil] at this

/-- Written one after the other, the lines of a file are the file. -/
theorem flatMap_raw_linesOf (s : List Char) : (linesOf s).flatMap Line.raw = s := by
  induction s with
  | nil => rfl
  | cons c s ih =>
      rw [linesOf]
      by_cases hc : c = '\n'
      · rw [if_pos hc, List.flatMap_cons, ih, hc]
        rfl
      · rw [if_neg hc]
        cases hs : linesOf s with
        | nil =>
            rw [hs] at ih
            rw [← ih]
            rfl
        | cons l ls =>
            rw [hs] at ih
            rw [← ih]
            simp [Line.raw]

theorem isFile_linesOf (s : List Char) : IsFile (linesOf s) := by
  induction s with
  | nil => trivial
  | cons c s ih =>
      rw [linesOf]
      by_cases hc : c = '\n'
      · rw [if_pos hc]
        exact ⟨List.not_mem_nil, Or.inl rfl, ih⟩
      · rw [if_neg hc]
        cases hs : linesOf s with
        | nil => exact ⟨by simpa using fun h => hc h.symm, Or.inr ⟨by simp, rfl⟩, trivial⟩
        | cons l ls =>
            rw [hs] at ih
            obtain ⟨hl, hended, hls⟩ := ih
            refine ⟨?_, hended.imp_right fun h => ⟨by simp, h.2⟩, hls⟩
            simpa [hl] using fun h => hc h.symm

theorem linesOf_append_newline {t : List Char} (ht : '\n' ∉ t) (s : List Char) :
    linesOf (t ++ '\n' :: s) = endedLine t :: linesOf s := by
  induction t with
  | nil => rw [List.nil_append, linesOf, if_pos rfl]
  | cons c t ih =>
      have hc : c ≠ '\n' := fun h => ht (h ▸ List.mem_cons_self ..)
      rw [List.cons_append, linesOf, if_neg hc, ih fun h => ht (List.mem_cons_of_mem _ h)]
      rfl

theorem linesOf_of_not_mem {t : List Char} (ht : '\n' ∉ t) (hne : t ≠ []) :
    linesOf t = [⟨t, false⟩] := by
  induction t with
  | nil => exact absurd rfl hne
  | cons c t ih =>
      have hc : c ≠ '\n' := fun h => ht (h ▸ List.mem_cons_self ..)
      rw [linesOf, if_neg hc]
      by_cases hnil : t = []
      · rw [hnil]
        rfl
      · rw [ih (fun h => ht (List.mem_cons_of_mem _ h)) hnil]

/-- A file written line by line has these lines. -/
theorem linesOf_flatMap_raw {ls : List Line} (h : IsFile ls) :
    linesOf (ls.flatMap Line.raw) = ls := by
  induction ls with
  | nil => rfl
  | cons l ls ih =>
      obtain ⟨text, ended⟩ := l
      obtain ⟨hl, hended, hls⟩ := h
      cases ended with
      | true =>
          have hraw : (⟨text, true⟩ : Line).raw = text ++ ['\n'] := rfl
          rw [List.flatMap_cons, hraw, List.append_assoc, List.singleton_append,
            linesOf_append_newline hl, ih hls]
          rfl
      | false =>
          obtain hended | ⟨hne, rfl⟩ := hended
          · cases hended
          · have hraw : (⟨text, false⟩ : Line).raw = text := List.append_nil _
            rw [List.flatMap_cons, hraw, List.flatMap_nil, List.append_nil]
            exact linesOf_of_not_mem hl hne

/-- Where a newline ends the last line, the texts and newlines are the file. -/
theorem flatMap_text_linesOf (s : List Char) :
    ((linesOf (s ++ ['\n'])).map Line.text).flatMap (· ++ ['\n']) = s ++ ['\n'] := by
  induction s with
  | nil => rfl
  | cons c s ih =>
      rw [List.cons_append, linesOf]
      by_cases hc : c = '\n'
      · rw [if_pos hc, List.map_cons, List.flatMap_cons, ih, hc]
        rfl
      · rw [if_neg hc]
        cases hs : linesOf (s ++ ['\n']) with
        | nil =>
            rw [hs] at ih
            exact absurd ih.symm (by simp)
        | cons l ls =>
            rw [hs] at ih
            rw [← ih]
            rfl

/-! ### Reading with a buffer -/

/-- `fgets` with a buffer for `n` characters and the NUL: what it reads of the file, and what is
left to read. -/
def fgets : ℕ → List Char → List Char × List Char
  | 0, s => ([], s)
  | _ + 1, [] => ([], [])
  | n + 1, c :: s => if c = '\n' then ([c], s) else (c :: (fgets n s).1, (fgets n s).2)

theorem fgets_length (n : ℕ) (s : List Char) :
    (fgets n s).1.length + (fgets n s).2.length = s.length := by
  induction s generalizing n with
  | nil => cases n <;> rfl
  | cons c s ih =>
      cases n with
      | zero => simp [fgets]
      | succ n =>
          rw [fgets]
          by_cases hc : c = '\n'
          · simp only [if_pos hc, List.length_cons, List.length_nil]
            omega
          · have := ih n
            simp only [if_neg hc, List.length_cons]
            omega

theorem fgets_length_pos {n : ℕ} (hn : 0 < n) {s : List Char} (hs : s ≠ []) :
    0 < (fgets n s).1.length := by
  obtain ⟨n, rfl⟩ := Nat.exists_eq_succ_of_ne_zero (Nat.ne_of_gt hn)
  cases s with
  | nil => exact absurd rfl hs
  | cons c s =>
      rw [fgets]
      by_cases hc : c = '\n'
      · rw [if_pos hc]
        exact Nat.one_pos
      · rw [if_neg hc]
        exact Nat.succ_pos _

/-- A line that fits into the buffer is read as a whole. -/
theorem fgets_append_newline {n : ℕ} {t : List Char} (ht : '\n' ∉ t) (hfit : t.length < n)
    (s : List Char) : fgets n (t ++ '\n' :: s) = (t ++ ['\n'], s) := by
  induction t generalizing n with
  | nil =>
      obtain ⟨n, rfl⟩ := Nat.exists_eq_succ_of_ne_zero (Nat.ne_of_gt hfit)
      rw [List.nil_append, fgets, if_pos rfl]
      rfl
  | cons c t ih =>
      obtain ⟨n, rfl⟩ := Nat.exists_eq_succ_of_ne_zero (Nat.ne_zero_of_lt hfit)
      have hc : c ≠ '\n' := fun h => ht (h ▸ List.mem_cons_self ..)
      have hrest := ih (fun h => ht (List.mem_cons_of_mem _ h)) (Nat.lt_of_succ_lt_succ hfit)
      rw [List.cons_append, fgets, if_neg hc, hrest]
      rfl

/-- Of a longer line the buffer takes what it holds. -/
theorem fgets_append_of_le {n : ℕ} {t : List Char} (ht : '\n' ∉ t) (hlong : n ≤ t.length)
    (s : List Char) : fgets n (t ++ s) = (t.take n, t.drop n ++ s) := by
  induction t generalizing n with
  | nil =>
      obtain rfl : n = 0 := Nat.le_zero.1 hlong
      rfl
  | cons c t ih =>
      cases n with
      | zero => rfl
      | succ n =>
          have hc : c ≠ '\n' := fun h => ht (h ▸ List.mem_cons_self ..)
          have hrest := ih (fun h => ht (List.mem_cons_of_mem _ h)) (Nat.le_of_succ_le_succ hlong)
          rw [List.cons_append, fgets, if_neg hc, hrest]
          rfl

/-- The last line is read as a whole when it has no newline and fits. -/
theorem fgets_of_not_mem {n : ℕ} {t : List Char} (ht : '\n' ∉ t) (hfit : t.length ≤ n) :
    fgets n t = (t, []) := by
  induction t generalizing n with
  | nil => cases n <;> rfl
  | cons c t ih =>
      obtain ⟨n, rfl⟩ := Nat.exists_eq_succ_of_ne_zero (Nat.ne_zero_of_lt hfit)
      have hc : c ≠ '\n' := fun h => ht (h ▸ List.mem_cons_self ..)
      have hrest := ih (fun h => ht (List.mem_cons_of_mem _ h)) (Nat.le_of_succ_le_succ hfit)
      rw [fgets, if_neg hc, hrest]

/-- The first `fuel` pieces that `fgets` reads of a file. -/
def piecesFuel (n : ℕ) : ℕ → List Char → List (List Char)
  | 0, _ => []
  | _ + 1, [] => []
  | fuel + 1, c :: s => (fgets n (c :: s)).1 :: piecesFuel n fuel (fgets n (c :: s)).2

/-- The pieces that `fgets` reads of a file up to its end: each has a character or more, so there
are no more pieces than characters. -/
def pieces (n : ℕ) (s : List Char) : List (List Char) := piecesFuel n s.length s

theorem piecesFuel_eq_pieces {n : ℕ} (hn : 0 < n) :
    ∀ {fuel : ℕ} {s : List Char}, s.length ≤ fuel → piecesFuel n fuel s = pieces n s := by
  -- `fgets` takes a character or more of a file that is not at its end, so each unit of fuel
  -- pays for one character and what is left over does not matter.
  have hall : ∀ (m : ℕ) {s : List Char}, s.length ≤ m → ∀ fuel, m ≤ fuel →
      piecesFuel n fuel s = piecesFuel n m s := by
    intro m
    induction m with
    | zero =>
        intro s hs fuel _
        obtain rfl : s = [] := List.length_eq_zero_iff.1 (Nat.le_zero.1 hs)
        cases fuel <;> rfl
    | succ m ih =>
        intro s hs fuel hfuel
        obtain ⟨fuel, rfl⟩ := Nat.exists_eq_succ_of_ne_zero (Nat.ne_zero_of_lt hfuel)
        cases s with
        | nil => rfl
        | cons c s =>
            have hpos := fgets_length_pos hn (List.cons_ne_nil c s)
            have hlen := fgets_length n (c :: s)
            rw [List.length_cons] at hs hlen
            rw [piecesFuel, piecesFuel, ih (by omega) fuel (Nat.le_of_succ_le_succ hfuel)]
  intro fuel s hs
  exact hall s.length le_rfl fuel hs

@[simp] theorem pieces_nil (n : ℕ) : pieces n [] = [] := rfl

theorem pieces_eq_cons {n : ℕ} (hn : 0 < n) {s : List Char} (hs : s ≠ []) :
    pieces n s = (fgets n s).1 :: pieces n (fgets n s).2 := by
  cases s with
  | nil => exact absurd rfl hs
  | cons c s =>
      have hpos := fgets_length_pos hn hs
      have hlen := fgets_length n (c :: s)
      rw [List.length_cons] at hlen
      rw [pieces, List.length_cons, piecesFuel, piecesFuel_eq_pieces hn (by omega)]

/-- The pieces of a line that a newline ends are read before all that follows. -/
theorem pieces_append {n : ℕ} (hn : 0 < n) {t : List Char} (ht : '\n' ∉ t) (s : List Char) :
    pieces n (t ++ '\n' :: s) = pieces n (t ++ ['\n']) ++ pieces n s := by
  -- The induction is on the text: what does not fit loses its first `n` characters.
  induction hlen : t.length using Nat.strongRecOn generalizing t with
  | _ len ih =>
      by_cases hfit : t.length < n
      · have hnil := fgets_append_newline ht hfit []
        rw [pieces_eq_cons hn (by simp), pieces_eq_cons hn (s := t ++ ['\n']) (by simp),
          fgets_append_newline ht hfit s, hnil]
        rfl
      · have hle : n ≤ t.length := not_lt.1 hfit
        have hdrop : '\n' ∉ t.drop n := fun h => ht (List.mem_of_mem_drop h)
        have hrest := ih (t.drop n).length (by rw [List.length_drop]; omega) hdrop rfl
        rw [pieces_eq_cons hn (by simp), pieces_eq_cons hn (s := t ++ ['\n']) (by simp),
          fgets_append_of_le ht hle, fgets_append_of_le ht hle]
        simp only [hrest, List.cons_append]

/-- A file is read line by line: no piece reaches over the end of a line. -/
theorem pieces_eq_flatMap {n : ℕ} (hn : 0 < n) {ls : List Line} (h : IsFile ls) :
    pieces n (ls.flatMap Line.raw) = ls.flatMap fun l => pieces n l.raw := by
  induction ls with
  | nil => rfl
  | cons l ls ih =>
      obtain ⟨text, ended⟩ := l
      obtain ⟨hl, hended, hls⟩ := h
      cases ended with
      | true =>
          have hraw : (⟨text, true⟩ : Line).raw = text ++ ['\n'] := rfl
          rw [List.flatMap_cons, List.flatMap_cons, ← ih hls, hraw, List.append_assoc,
            List.singleton_append, pieces_append hn hl]
      | false =>
          obtain hended | ⟨-, rfl⟩ := hended
          · cases hended
          · simp

/-- Every piece of a line is short, and has a newline only at its end. -/
theorem mem_pieces_raw {n : ℕ} (hn : 0 < n) {l : Line} (hl : '\n' ∉ l.text) {p : List Char}
    (hp : p ∈ pieces n l.raw) :
    p.length ≤ n ∧ ∃ t, '\n' ∉ t ∧ (p = t ∨ p = t ++ ['\n']) := by
  obtain ⟨text, ended⟩ := l
  induction hlen : text.length using Nat.strongRecOn generalizing text with
  | _ len ih =>
      subst hlen
      replace hl : '\n' ∉ text := hl
      -- A long line gives a full buffer without its newline and then the pieces of what is left; a
      -- short one is read at once, with the newline when it has one.
      by_cases hlong : n ≤ text.length
      · have hraw : (⟨text, ended⟩ : Line).raw ≠ [] := by
          intro h
          have : text = [] := (List.append_eq_nil_iff.1 h).1
          subst this
          exact absurd hlong (by simpa using Nat.ne_of_gt hn)
        rw [pieces_eq_cons hn hraw, Line.raw, fgets_append_of_le hl hlong, List.mem_cons] at hp
        obtain rfl | hp := hp
        · exact ⟨List.length_take_le .., text.take n, fun h => hl (List.mem_of_mem_take h),
            Or.inl rfl⟩
        · have hdrop : '\n' ∉ text.drop n := fun h => hl (List.mem_of_mem_drop h)
          exact ih (text.drop n).length (by rw [List.length_drop]; omega) _ hdrop hp rfl
      · have hshort : text.length < n := not_le.1 hlong
        cases ended with
        | true =>
            have hraw : (⟨text, true⟩ : Line).raw = text ++ ['\n'] := rfl
            rw [hraw, pieces_eq_cons hn (by simp), fgets_append_newline hl hshort [],
              pieces_nil, List.mem_singleton] at hp
            subst hp
            refine ⟨?_, text, hl, Or.inr rfl⟩
            rw [List.length_append]
            exact hshort
        | false =>
            have hraw : (⟨text, false⟩ : Line).raw = text := List.append_nil _
            rw [hraw] at hp
            by_cases hnil : text = []
            · rw [hnil] at hp
              cases hp
            · rw [pieces_eq_cons hn hnil, fgets_of_not_mem hl hshort.le, pieces_nil,
                List.mem_singleton] at hp
              subst hp
              exact ⟨hshort.le, _, hl, Or.inl rfl⟩

/-- A line that fits with its newline is one piece. -/
theorem pieces_raw_of_le {n : ℕ} {l : Line} (hl : '\n' ∉ l.text) (hne : l.raw ≠ [])
    (hfit : l.raw.length ≤ n) : pieces n l.raw = [l.raw] := by
  obtain ⟨text, ended⟩ := l
  have hn : 0 < n := lt_of_lt_of_le (List.length_pos_iff.2 hne) hfit
  cases ended with
  | true =>
      have hraw : (⟨text, true⟩ : Line).raw = text ++ ['\n'] := rfl
      rw [hraw, List.length_append] at hfit
      rw [hraw, pieces_eq_cons hn (by simp), fgets_append_newline hl hfit []]
      rfl
  | false =>
      have hraw : (⟨text, false⟩ : Line).raw = text := List.append_nil _
      rw [hraw] at hfit hne ⊢
      rw [pieces_eq_cons hn hne, fgets_of_not_mem hl hfit]
      rfl

/-- A line that just fits without its newline leaves the newline as a piece of its own. -/
theorem pieces_raw_of_eq {n : ℕ} (hn : 0 < n) {text : List Char} (hl : '\n' ∉ text)
    (hlen : text.length = n) : pieces n (text ++ ['\n']) = [text, ['\n']] := by
  have hnl : pieces n ['\n'] = [['\n']] :=
    pieces_raw_of_le (l := endedLine []) List.not_mem_nil (by simp) hn
  rw [pieces_eq_cons hn (by simp), fgets_append_of_le hl (Nat.le_of_eq hlen.symm), ← hlen,
    List.take_length, List.drop_length, List.nil_append, hlen, hnl]

end TextFile

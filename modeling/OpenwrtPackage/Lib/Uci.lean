/-
**UCI packages.**

A package of UCI is a list of sections, each with a type, perhaps a name, and options whose values
are strings or lists of strings.  The command `uci` prints a package line by line and changes it; a
section can be told by its number among the sections of its type.

* `Uci.Section`, `Uci.sectionsOf` — the sections of a package, and those of a type;
* `Uci.printPackage`, `Uci.Value.printed` — `uci show` and `uci get`;
* `Uci.addListAt` — `uci add_list`, with `Uci.get_addList` and `Uci.sectionsOf_addListAt`;
* `Uci.count_printPackage` — **which lines of `uci show` contain an option with a value**;
* `Uci.countWord_printed` — **which words `grep -w` finds in what `uci get` prints**.
-/
import OpenwrtPackage.Lib.Grep
import OpenwrtPackage.Lib.Scan

set_option relaxedAutoImplicit false
set_option autoImplicit false

namespace Uci

open TextFile Grep

/-! ### Packages -/

/-- A character of a name. -/
def isNameChar (c : Char) : Bool := c.isAlphanum || c = '_' || c = '-'

/-- The name of a section, a type or an option. -/
structure Name where
  text : List Char
  isName : ∀ c ∈ text, isNameChar c = true

instance : DecidableEq Name := fun m n =>
  decidable_of_iff (m.text = n.text)
    ⟨fun h => by cases m; cases n; cases h; rfl, congrArg Name.text⟩

/-- The value of an option. -/
inductive Value where
  | str (v : List Char)
  | list (vs : List (List Char))
  deriving DecidableEq

structure Opt where
  name : Name
  value : Value
  deriving DecidableEq

/-- A section; without a name it is anonymous. -/
structure Section where
  name : Option Name
  type : Name
  options : List Opt
  deriving DecidableEq

/-- The strings of a value. -/
def Value.values : Value → List (List Char)
  | .str v => [v]
  | .list vs => vs

/-- The value of an option of a section. -/
def Section.get (s : Section) (name : Name) : Option Value :=
  (s.options.find? fun o => o.name = name).map Opt.value

/-- The sections of a type; the one with the number `n` is `package.@type[n]`. -/
def sectionsOf (type : Name) (ss : List Section) : List Section := ss.filter fun s => s.type = type

/-! ### Printing -/

/-- A quote inside of quotes. -/
def escape (v : List Char) : List Char :=
  v.flatMap fun c => if c = '\'' then ['\'', '\\', '\'', '\''] else [c]

/-- A value in quotes. -/
def quote (v : List Char) : List Char := '\'' :: (escape v ++ ['\''])

/-- Values with blanks between them. -/
def spaced : List (List Char) → List Char
  | [] => []
  | [v] => v
  | v :: w :: vs => v ++ ' ' :: spaced (w :: vs)

/-- How `uci show` prints a value. -/
def Value.shown : Value → List Char
  | .str v => quote v
  | .list vs => spaced (vs.map quote)

/-- A blank inside of a value. -/
def isBlank (c : Char) : Bool := c = ' ' || c = '\t' || c = '\r' || c = '\n'

/-- How `uci get` prints a string of a list. -/
def quoteBlanks (v : List Char) : List Char := if v.any isBlank then quote v else v

/-- `uci get` -/
def Value.printed : Value → List Char
  | .str v => v ++ ['\n']
  | .list vs => spaced (vs.map quoteBlanks) ++ ['\n']

/-- How a section is called; `before` are the sections in front of it. -/
def sectionRef (before : List Section) (s : Section) : List Char :=
  match s.name with
  | some name => name.text
  | none =>
      '@' :: (s.type.text ++
        '[' :: (CScan.dec (before.countP fun t => t.type = s.type) ++ [']']))

/-- `package.section` -/
def sectionPath (package : Name) (before : List Section) (s : Section) : List Char :=
  package.text ++ '.' :: sectionRef before s

/-- The line of an option. -/
def printOption (path : List Char) (o : Opt) : List Char :=
  path ++ '.' :: (o.name.text ++ '=' :: (o.value.shown ++ ['\n']))

/-- The line of a section and those of its options. -/
def printSection (package : Name) (before : List Section) (s : Section) : List Char :=
  sectionPath package before s ++ '=' :: (s.type.text ++ ['\n']) ++
    s.options.flatMap (printOption (sectionPath package before s))

/-- The sections behind `before`. -/
def printFrom (package : Name) : List Section → List Section → List Char
  | _, [] => []
  | before, s :: ss => printSection package before s ++ printFrom package (before ++ [s]) ss

/-- `uci show package` -/
def printPackage (package : Name) (ss : List Section) : List Char := printFrom package [] ss

/-! ### Changing -/

/-- A value gets one string more. -/
def addTo (name : Name) (v : List Char) : List Opt → List Opt
  | [] => [⟨name, .list [v]⟩]
  | o :: os =>
      if o.name = name then ⟨o.name, .list (o.value.values ++ [v])⟩ :: os else o :: addTo name v os

def Section.addList (name : Name) (v : List Char) (s : Section) : Section :=
  { s with options := addTo name v s.options }

/-- `uci add_list package.@type[n].name=v`; without such a section nothing changes. -/
def addListAt (type name : Name) (v : List Char) : ℕ → List Section → List Section
  | _, [] => []
  | n, s :: ss =>
      if s.type ≠ type then s :: addListAt type name v n ss
      else if n = 0 then s.addList name v :: ss
      else s :: addListAt type name v (n - 1) ss

theorem get_addTo (name : Name) (v : List Char) (os : List Opt) :
    ((addTo name v os).find? fun o => o.name = name).map Opt.value =
      some (.list ((((os.find? fun o => o.name = name).map Opt.value).map Value.values).getD [] ++
        [v])) := by
  induction os with
  | nil =>
      rw [addTo, List.find?_cons_of_pos (by simp)]
      rfl
  | cons o os ih =>
      rw [addTo]
      by_cases ho : o.name = name
      · rw [if_pos ho, List.find?_cons_of_pos (by simpa using ho),
          List.find?_cons_of_pos (by simpa using ho)]
        rfl
      · rw [if_neg ho, List.find?_cons_of_neg (by simpa using ho),
          List.find?_cons_of_neg (by simpa using ho), ih]

/-- The option has its strings, and the new one behind them. -/
theorem get_addList (name : Name) (v : List Char) (s : Section) :
    (s.addList name v).get name =
      some (.list (((s.get name).map Value.values).getD [] ++ [v])) :=
  get_addTo name v s.options

/-- Only the section with the number changes. -/
theorem sectionsOf_addListAt (type name : Name) (v : List Char) (n : ℕ) (ss : List Section) :
    sectionsOf type (addListAt type name v n ss) =
      (sectionsOf type ss).modify n (Section.addList name v) := by
  induction ss generalizing n with
  | nil => cases n <;> rfl
  | cons s ss ih =>
      rw [addListAt]
      by_cases hs : s.type = type
      · rw [if_neg (not_not_intro hs)]
        cases n with
        | zero =>
            have hs' : (s.addList name v).type = type := hs
            rw [if_pos rfl, sectionsOf, sectionsOf, List.filter_cons_of_pos (by simpa using hs'),
              List.filter_cons_of_pos (by simpa using hs)]
            rfl
        | succ n =>
            rw [if_neg (Nat.succ_ne_zero n), sectionsOf, sectionsOf,
              List.filter_cons_of_pos (by simpa using hs),
              List.filter_cons_of_pos (by simpa using hs)]
            exact congrArg (s :: ·) (ih n)
      · rw [if_pos hs, sectionsOf, sectionsOf, List.filter_cons_of_neg (by simpa using hs),
          List.filter_cons_of_neg (by simpa using hs)]
        exact ih n

/-- Without such a section nothing changes. -/
theorem addListAt_of_le {type name : Name} {v : List Char} {n : ℕ} {ss : List Section}
    (h : (sectionsOf type ss).length ≤ n) : addListAt type name v n ss = ss := by
  induction ss generalizing n with
  | nil => rfl
  | cons s ss ih =>
      rw [addListAt]
      by_cases hs : s.type = type
      · rw [sectionsOf, List.filter_cons_of_pos (by simpa using hs), List.length_cons] at h
        obtain ⟨n, rfl⟩ := Nat.exists_eq_succ_of_ne_zero (Nat.ne_zero_of_lt h)
        rw [if_neg (not_not_intro hs), if_neg (Nat.succ_ne_zero n)]
        exact congrArg (s :: ·) (ih (Nat.le_of_succ_le_succ h))
      · rw [sectionsOf, List.filter_cons_of_neg (by simpa using hs)] at h
        rw [if_pos hs]
        exact congrArg (s :: ·) (ih h)

/-! ### Looking for an option in what is printed -/

/-- `key='value'` -/
def assign (key value : List Char) : List Char := key ++ '=' :: '\'' :: (value ++ ['\''])

/-- The line of the option contains `key='value'`: its name ends with the key, and the first string
is the value, or goes on with a quote behind it. -/
def Opt.Assigns (key value : List Char) (o : Opt) : Prop :=
  key <:+ o.name.text ∧ ∃ u ∈ o.value.values.head?, u = value ∨ value ++ ['\''] <+: u

instance (key value : List Char) : DecidablePred (Opt.Assigns key value) :=
  fun _ => inferInstanceAs (Decidable (_ ∧ _))

/-- Characters that separate the parts of a printed line. -/
def isMark (c : Char) : Bool := c = '=' || c = '\'' || c = '\n'

/-- A kind of characters without the marks. -/
theorem isMark_eq_false {p : Char → Bool} (hequals : p '=' = false) (hquote : p '\'' = false)
    (hnewline : p '\n' = false) {c : Char} (h : p c = true) : isMark c = false := by
  simp only [isMark, Bool.or_eq_false_iff, decide_eq_false_iff_not]
  refine ⟨⟨?_, ?_⟩, ?_⟩
  · rintro rfl
    rw [h] at hequals
    cases hequals
  · rintro rfl
    rw [h] at hquote
    cases hquote
  · rintro rfl
    rw [h] at hnewline
    cases hnewline

theorem isMark_of_isNameChar {c : Char} (h : isNameChar c = true) : isMark c = false :=
  isMark_eq_false rfl rfl rfl h

theorem isMark_of_mem_dec {n : ℕ} {c : Char} (h : c ∈ CScan.dec n) : isMark c = false :=
  isMark_eq_false rfl rfl rfl (CScan.isDigit_of_mem_toDigits (by decide) (by decide) n c h)

/-- There is no mark in the path of a section. -/
theorem isMark_sectionPath (package : Name) (before : List Section) (s : Section) :
    ∀ c ∈ sectionPath package before s, isMark c = false := by
  intro c hc
  rw [sectionPath, List.mem_append, List.mem_cons] at hc
  rcases hc with hc | rfl | hc
  · exact isMark_of_isNameChar (package.isName c hc)
  · rfl
  · rw [sectionRef] at hc
    split at hc
    · rename_i name _
      exact isMark_of_isNameChar (name.isName c hc)
    · simp only [List.mem_cons, List.mem_append, List.not_mem_nil, or_false] at hc
      rcases hc with rfl | hc | rfl | hc | rfl
      · rfl
      · exact isMark_of_isNameChar (s.type.isName c hc)
      · rfl
      · exact isMark_of_mem_dec hc
      · rfl

/-! ### Quotes -/

/-- Nowhere in the text an assignment begins whose value starts with `c`, not even with the sign
in front of it. -/
def Quiet (c : Char) (t : List Char) : Prop := ¬ ['=', '\'', c] <:+: t ∧ ¬ ['\'', c] <+: t

section Quiet

variable {c : Char}

theorem quiet_newline (c : Char) : Quiet c ['\n'] := by
  refine ⟨?_, ?_⟩
  · intro h
    have := h.length_le
    simp at this
  · intro h
    have := h.length_le
    simp at this

theorem not_infix_cons {d : Char} {t : List Char} (h : ¬ ['=', '\'', c] <:+: t) (hd : d ≠ '=') :
    ¬ ['=', '\'', c] <:+: d :: t := by
  intro hinfix
  rcases List.infix_cons_iff.1 hinfix with hprefix | hinfix
  · exact hd (List.cons_prefix_cons.1 hprefix).1.symm
  · exact h hinfix

/-- In front of an opening quote stands a blank. -/
theorem quiet_open {t : List Char} (h : Quiet c t) : Quiet c (' ' :: '\'' :: t) := by
  refine ⟨not_infix_cons (not_infix_cons h.1 (by decide)) (by decide), ?_⟩
  intro hprefix
  exact absurd (List.cons_prefix_cons.1 hprefix).1 (by decide)

theorem ne_of_isNameChar {d : Char} (hc : isNameChar c = true) (hd : isNameChar d = false) :
    c ≠ d := by
  rintro rfl
  rw [hc] at hd
  cases hd

/-- Behind a closing quote stands something else than a value. -/
theorem quiet_close (hc : isNameChar c = true) {d : Char} {t : List Char}
    (h : Quiet c (d :: t)) (hd : isNameChar d = false) : Quiet c ('\'' :: d :: t) := by
  refine ⟨not_infix_cons h.1 (by decide), ?_⟩
  intro hprefix
  obtain ⟨-, hprefix⟩ := List.cons_prefix_cons.1 hprefix
  exact ne_of_isNameChar hc hd (List.cons_prefix_cons.1 hprefix).1

theorem quiet_cons {d : Char} {t : List Char} (h : Quiet c t) (hd : d ≠ '\'') :
    Quiet c (d :: t) := by
  refine ⟨?_, ?_⟩
  · intro hinfix
    rcases List.infix_cons_iff.1 hinfix with hprefix | hinfix
    · exact h.2 (List.cons_prefix_cons.1 hprefix).2
    · exact h.1 hinfix
  · intro hprefix
    exact hd (List.cons_prefix_cons.1 hprefix).1.symm

theorem escape_cons (d : Char) (v : List Char) :
    escape (d :: v) = (if d = '\'' then ['\'', '\\', '\'', '\''] else [d]) ++ escape v := rfl

/-- An escaped quote is no opening one. -/
theorem quiet_escape (hc : isNameChar c = true) (v : List Char) {t : List Char}
    (h : Quiet c t) : Quiet c (escape v ++ t) := by
  induction v with
  | nil => exact h
  | cons d v ih =>
      rw [escape_cons, List.append_assoc]
      by_cases hd : d = '\''
      · rw [if_pos hd]
        refine quiet_close hc (quiet_cons ?_ (by decide)) rfl
        refine ⟨not_infix_cons (not_infix_cons ih.1 (by decide)) (by decide), ?_⟩
        intro hprefix
        obtain ⟨-, hprefix⟩ := List.cons_prefix_cons.1 hprefix
        exact ne_of_isNameChar hc rfl (List.cons_prefix_cons.1 hprefix).1
      · rw [if_neg hd]
        exact quiet_cons ih hd

/-- A printed value begins with its first string in quotes, and behind these is quiet. -/
theorem shown_list (hc : isNameChar c = true) (u : List Char) (us : List (List Char)) :
    ∃ tail, spaced ((u :: us).map quote) = '\'' :: (escape u ++ '\'' :: tail) ∧
      Quiet c ('\'' :: (tail ++ ['\n'])) := by
  induction us generalizing u with
  | nil => exact ⟨[], rfl, quiet_close hc (quiet_newline c) rfl⟩
  | cons w us ih =>
      obtain ⟨tail, htail, hquiet⟩ := ih w
      refine ⟨' ' :: spaced ((w :: us).map quote), ?_, ?_⟩
      · show quote u ++ ' ' :: _ = _
        rw [quote, List.cons_append, List.append_assoc]
        rfl
      · rw [htail]
        simp only [List.cons_append, List.append_assoc]
        exact quiet_close hc (quiet_open (quiet_escape hc w hquiet)) rfl

/-- Every printed value. -/
theorem shown_cases (hc : isNameChar c = true) (v : Value) :
    v.shown = [] ∧ v.values = [] ∨
      ∃ u tail, v.values.head? = some u ∧ v.shown = '\'' :: (escape u ++ '\'' :: tail) ∧
        Quiet c ('\'' :: (tail ++ ['\n'])) := by
  cases v with
  | str v =>
      obtain ⟨tail, htail, hquiet⟩ := shown_list hc v []
      exact .inr ⟨v, tail, rfl, htail, hquiet⟩
  | list vs =>
      cases vs with
      | nil => exact .inl ⟨rfl, rfl⟩
      | cons u us =>
          obtain ⟨tail, htail, hquiet⟩ := shown_list hc u us
          exact .inr ⟨u, tail, rfl, htail, hquiet⟩

end Quiet

/-! ### The lines of `uci show` -/

section Lines

variable {key value : List Char}

/-- The sign of an assignment is the only one in its line. -/
theorem assign_infix_iff {c : Char} {vs lhs q : List Char} (hlhs : ∀ d ∈ lhs, isMark d = false)
    (hq : ¬ ['=', '\'', c] <:+: q) :
    assign key (c :: vs) <:+: lhs ++ '=' :: '\'' :: q ↔
      key <:+ lhs ∧ (c :: vs) ++ ['\''] <+: q := by
  constructor
  · rintro ⟨a, b, hab⟩
    have hsplit : (a ++ key) ++ '=' :: '\'' :: ((c :: vs) ++ ['\''] ++ b) =
        lhs ++ '=' :: '\'' :: q := by
      rw [← hab, assign]
      simp only [List.append_assoc, List.cons_append]
    rcases List.append_eq_append_iff.1 hsplit with ⟨m, hm, hrest⟩ | ⟨m, hm, hrest⟩
    · cases m with
      | nil =>
          rw [List.append_nil] at hm
          obtain ⟨-, hrest⟩ := List.cons.inj hrest
          obtain ⟨-, hrest⟩ := List.cons.inj hrest
          exact ⟨⟨a, hm.symm⟩, ⟨b, hrest⟩⟩
      | cons d m =>
          obtain ⟨rfl, -⟩ := List.cons.inj hrest
          have hmark := hlhs '=' (by rw [hm]; simp)
          exact absurd hmark (by decide)
    · cases m with
      | nil =>
          rw [List.append_nil] at hm
          obtain ⟨-, hrest⟩ := List.cons.inj hrest
          obtain ⟨-, hrest⟩ := List.cons.inj hrest
          exact ⟨⟨a, hm⟩, ⟨b, hrest.symm⟩⟩
      | cons d m =>
          -- The sign would stand behind the opening quote, where there is none.
          obtain ⟨-, hrest⟩ := List.cons.inj hrest
          cases m with
          | nil =>
              obtain ⟨heq, -⟩ := List.cons.inj hrest
              exact absurd heq (by decide)
          | cons e m =>
              obtain ⟨-, hrest⟩ := List.cons.inj hrest
              refine absurd ⟨m, vs ++ ['\''] ++ b, ?_⟩ hq
              rw [hrest]
              simp only [List.append_assoc, List.cons_append, List.nil_append]
              rfl
  · rintro ⟨⟨a, rfl⟩, ⟨b, rfl⟩⟩
    refine ⟨a, b, ?_⟩
    rw [assign]
    simp only [List.append_assoc, List.cons_append]

/-- A value without quotes in front of the quoted text of another one. -/
theorem prefix_escape_iff (hvalue : ∀ c ∈ value, isNameChar c = true) (u t : List Char) :
    value ++ ['\''] <+: escape u ++ '\'' :: t ↔ u = value ∨ value ++ ['\''] <+: u := by
  induction value generalizing u with
  | nil =>
      cases u with
      | nil => exact iff_of_true ⟨t, rfl⟩ (.inl rfl)
      | cons d u =>
          rw [escape_cons, List.nil_append]
          by_cases hd : d = '\''
          · rw [if_pos hd, hd]
            exact iff_of_true ⟨_, rfl⟩ (.inr ⟨u, rfl⟩)
          · rw [if_neg hd]
            refine iff_of_false ?_ ?_
            · intro hprefix
              exact hd (List.cons_prefix_cons.1 hprefix).1.symm
            · rintro (h | hprefix)
              · cases h
              · exact hd (List.cons_prefix_cons.1 hprefix).1.symm
  | cons c value ih =>
      have hc : c ≠ '\'' := ne_of_isNameChar (hvalue c (List.mem_cons_self ..)) rfl
      have hrest := ih fun d hd => hvalue d (List.mem_cons_of_mem _ hd)
      cases u with
      | nil =>
          refine iff_of_false ?_ ?_
          · intro hprefix
            exact hc (List.cons_prefix_cons.1 hprefix).1
          · rintro (h | hprefix)
            · cases h
            · exact List.cons_ne_nil _ _ (List.prefix_nil.1 hprefix)
      | cons d u =>
          rw [escape_cons]
          by_cases hd : d = '\''
          · rw [if_pos hd]
            refine iff_of_false ?_ ?_
            · intro hprefix
              exact hc (List.cons_prefix_cons.1 hprefix).1
            · rintro (h | hprefix)
              · exact hc ((List.cons.inj h).1.symm.trans hd)
              · exact hc ((List.cons_prefix_cons.1 hprefix).1.trans hd)
          · rw [if_neg hd, List.cons_append, List.cons_append, List.nil_append, List.cons_append,
              List.cons_prefix_cons, hrest, List.cons_prefix_cons, List.cons.injEq]
            constructor
            · rintro ⟨rfl, h | h⟩
              · exact .inl ⟨rfl, h⟩
              · exact .inr ⟨rfl, h⟩
            · rintro (⟨rfl, h⟩ | ⟨rfl, h⟩)
              · exact ⟨rfl, .inl h⟩
              · exact ⟨rfl, .inr h⟩

/-- A text without a newline does not reach over the end of a line. -/
theorem prefix_line_iff {t q r : List Char} (ht : '\n' ∉ t) :
    t <+: q ↔ t <+: q ++ '\n' :: r := by
  constructor
  · intro h
    exact h.trans (List.prefix_append q _)
  · intro h
    rcases Nat.le_total t.length q.length with hle | hle
    · exact List.prefix_of_prefix_length_le h (List.prefix_append q _) hle
    · obtain ⟨b, rfl⟩ := List.prefix_of_prefix_length_le (List.prefix_append q _) h hle
      cases b with
      | nil => exact ⟨[], by rw [List.append_nil, List.append_nil]⟩
      | cons d b =>
          rw [List.prefix_append_right_inj, List.cons_prefix_cons] at h
          exact absurd (h.1 ▸ by simp) ht

/-- A key is the end of a path exactly when it is the end of its last name. -/
theorem suffix_path_iff (hkey : ∀ c ∈ key, isNameChar c = true) (path name : List Char) :
    key <:+ path ++ '.' :: name ↔ key <:+ name := by
  constructor
  · intro h
    have hname : name <:+ path ++ '.' :: name := (List.suffix_cons '.' name).trans
      (List.suffix_append path _)
    rcases Nat.lt_or_ge name.length key.length with hlt | hle
    · have hdot : '.' :: name <:+ key := List.suffix_of_suffix_length_le
        (List.suffix_append path _) h hlt
      exact absurd (hkey '.' (hdot.subset (List.mem_cons_self ..))) (by decide)
    · exact List.suffix_of_suffix_length_le h hname hle
  · intro h
    exact h.trans ((List.suffix_cons '.' name).trans (List.suffix_append path _))

theorem count_of_quotes {pattern s : List Char} (hpattern : '\'' ∈ pattern) (hs : '\'' ∉ s) :
    count pattern s = 0 := count_eq_zero fun h => hs (h.subset hpattern)

theorem quote_mem_assign (key value : List Char) : '\'' ∈ assign key value := by
  rw [assign]
  simp

/-- An option is on one line, and this line contains the assignment or not. -/
theorem count_printOption {c : Char} {vs : List Char} (hkey : ∀ d ∈ key, isNameChar d = true)
    (hvalue : ∀ d ∈ c :: vs, isNameChar d = true) {path : List Char}
    (hpath : ∀ d ∈ path, isMark d = false) (o : Opt) :
    count (assign key (c :: vs)) (printOption path o) =
      if o.Assigns key (c :: vs) then 1 else 0 := by
  have hlhs : ∀ d ∈ path ++ '.' :: o.name.text, isMark d = false := by
    intro d hd
    rcases List.mem_append.1 hd with hd | hd
    · exact hpath d hd
    · rcases List.mem_cons.1 hd with rfl | hd
      · rfl
      · exact isMark_of_isNameChar (o.name.isName d hd)
  have hmark : ∀ d, isMark d = true → d ∉ path ++ '.' :: o.name.text := by
    intro d hd hmem
    rw [hlhs d hmem] at hd
    cases hd
  have hprint : printOption path o =
      (path ++ '.' :: o.name.text) ++ '=' :: (o.value.shown ++ ['\n']) := by
    rw [printOption, List.append_assoc]
    rfl
  rw [hprint]
  rcases shown_cases (hvalue c (List.mem_cons_self ..)) o.value with
    ⟨hshown, hvalues⟩ | ⟨u, tail, hu, hshown, hquiet⟩
  · have hno : ¬ o.Assigns key (c :: vs) := by
      rintro ⟨-, u, hu, -⟩
      rw [hvalues] at hu
      cases hu
    rw [if_neg hno, hshown]
    refine count_of_quotes (quote_mem_assign _ _) ?_
    rw [List.mem_append, not_or]
    exact ⟨hmark '\'' rfl, by decide⟩
  · -- The line ends at the first newline, which may stand inside of a string.
    have hrest := quiet_escape (hvalue c (List.mem_cons_self ..)) u hquiet
    obtain ⟨q, r, hqr, hq⟩ := List.eq_append_cons_of_mem
      (show '\n' ∈ escape u ++ '\'' :: (tail ++ ['\n']) by simp)
    have htext : o.value.shown ++ ['\n'] = '\'' :: (q ++ '\n' :: r) := by
      rw [hshown, ← hqr]
      simp only [List.cons_append, List.append_assoc]
    have hline : '\n' ∉ path ++ '.' :: o.name.text ++ '=' :: '\'' :: q := by
      rw [List.mem_append, not_or]
      refine ⟨hmark '\n' rfl, ?_⟩
      simp only [List.mem_cons, not_or]
      exact ⟨by decide, by decide, hq⟩
    rw [hqr] at hrest
    have hfirst : ¬ ['=', '\'', c] <:+: q := fun h =>
      hrest.1 (h.trans (List.prefix_append q _).isInfix)
    have hlast : ¬ assign key (c :: vs) <:+: r := by
      intro h
      refine hrest.1 (List.IsInfix.trans ?_ (h.trans ((List.suffix_cons '\n' r).trans
        (List.suffix_append q _)).isInfix))
      exact ⟨key, vs ++ ['\''], by rw [assign]; simp⟩
    have hvalue' : '\n' ∉ (c :: vs) ++ ['\''] := by
      rw [List.mem_append, not_or]
      refine ⟨fun hmem => ?_, by decide⟩
      exact absurd (hvalue '\n' hmem) (by decide)
    have hiff : assign key (c :: vs) <:+: path ++ '.' :: o.name.text ++ '=' :: '\'' :: q ↔
        o.Assigns key (c :: vs) := by
      rw [assign_infix_iff hlhs hfirst, suffix_path_iff hkey, prefix_line_iff hvalue', ← hqr,
        prefix_escape_iff hvalue, Opt.Assigns, hu]
      simp
    have hcut : path ++ '.' :: o.name.text ++ '=' :: '\'' :: (q ++ '\n' :: r) =
        (path ++ '.' :: o.name.text ++ '=' :: '\'' :: q) ++ '\n' :: r := by
      simp only [List.append_assoc, List.cons_append]
    rw [htext, hcut, count, linesOf_append_newline hline, List.countP_cons, ← count,
      count_eq_zero hlast, Nat.zero_add]
    simp only [endedLine_text, decide_eq_true_iff, hiff]

theorem ended_printOption (path : List Char) (o : Opt) : Ended (printOption path o) := by
  have hconcat : printOption path o =
      (path ++ '.' :: (o.name.text ++ '=' :: o.value.shown)) ++ ['\n'] := by
    rw [printOption]
    simp only [List.append_assoc, List.cons_append]
  rw [hconcat]
  exact ended_concat _

/-- The line of the section itself. -/
theorem ended_sectionLine (path type : List Char) : Ended (path ++ '=' :: (type ++ ['\n'])) := by
  have hconcat : path ++ '=' :: (type ++ ['\n']) = (path ++ '=' :: type) ++ ['\n'] := by
    simp only [List.append_assoc, List.cons_append]
  rw [hconcat]
  exact ended_concat _

theorem ended_printSection (package : Name) (before : List Section) (s : Section) :
    Ended (printSection package before s) :=
  ended_append (ended_sectionLine _ _) (ended_flatMap (ended_printOption _) _)

/-- The line of a section has no quote, and each option has its line. -/
theorem count_printSection {c : Char} {vs : List Char} (hkey : ∀ d ∈ key, isNameChar d = true)
    (hvalue : ∀ d ∈ c :: vs, isNameChar d = true) (package : Name) (before : List Section)
    (s : Section) :
    count (assign key (c :: vs)) (printSection package before s) =
      s.options.countP fun o => o.Assigns key (c :: vs) := by
  have hpath := isMark_sectionPath package before s
  have hheader : '\'' ∉ sectionPath package before s ++ '=' :: (s.type.text ++ ['\n']) := by
    simp only [List.mem_append, List.mem_cons, not_or, List.not_mem_nil, not_false_eq_true,
      and_true]
    refine ⟨?_, by decide, ?_, by decide⟩
    · intro hmem
      exact absurd (hpath '\'' hmem) (by decide)
    · intro hmem
      exact absurd (s.type.isName '\'' hmem) (by decide)
  rw [printSection, count_append_of_ended _ (ended_sectionLine _ _),
    count_of_quotes (quote_mem_assign _ _) hheader, Nat.zero_add]
  refine count_flatMap (ended_printOption _) ?_ s.options
  intro o
  rw [count_printOption hkey hvalue hpath]
  simp only [decide_eq_true_iff]

/-- The options of a package. -/
def optionsOf (ss : List Section) : List Opt := ss.flatMap Section.options

/-- **As many lines of `uci show` contain `key='value'` as there are options that assign it.** -/
theorem count_printPackage {c : Char} {vs : List Char} (hkey : ∀ d ∈ key, isNameChar d = true)
    (hvalue : ∀ d ∈ c :: vs, isNameChar d = true) (package : Name) (ss : List Section) :
    count (assign key (c :: vs)) (printPackage package ss) =
      (optionsOf ss).countP fun o => o.Assigns key (c :: vs) := by
  have hfrom : ∀ before, count (assign key (c :: vs)) (printFrom package before ss) =
      (optionsOf ss).countP fun o => o.Assigns key (c :: vs) := by
    induction ss with
    | nil =>
        intro before
        exact count_nil _
    | cons s ss ih =>
        intro before
        have hcons : optionsOf (s :: ss) = s.options ++ optionsOf ss := List.flatMap_cons
        rw [printFrom, count_append_of_ended _ (ended_printSection _ _ _),
          count_printSection hkey hvalue, ih, hcons, List.countP_append]
  exact hfrom []

end Lines

/-! ### Looking for a word in a value -/

/-- A blank-separated word of one of the strings. -/
def Value.Contains (word : List Char) (v : Value) : Prop :=
  ∃ u ∈ v.values, hasWord isBlank word u = true

instance (word : List Char) (v : Value) : Decidable (v.Contains word) :=
  inferInstanceAs (Decidable (∃ u ∈ _, _))

/-- A word of one of the strings, whatever stands around it. -/
def Value.Mentions (word : List Char) (v : Value) : Prop :=
  ∃ u ∈ v.values, hasWord isSeparator word u = true

instance (word : List Char) (v : Value) : Decidable (v.Mentions word) :=
  inferInstanceAs (Decidable (∃ u ∈ _, _))

section Words

variable {word : List Char}

theorem isSeparator_of_isBlank {c : Char} (h : isBlank c = true) : isSeparator c = true := by
  simp only [isBlank, Bool.or_eq_true, decide_eq_true_iff] at h
  rcases h with ((rfl | rfl) | rfl) | rfl
  · decide
  · decide
  · decide
  · decide

theorem Value.Contains.mentions {v : Value} (h : v.Contains word) : v.Mentions word := by
  obtain ⟨u, hu, hhas⟩ := h
  obtain ⟨a, b, hab, ha, hb⟩ := hasWord_iff.1 hhas
  exact ⟨u, hu, hasWord_iff.2 ⟨a, b, hab, fun c hc => isSeparator_of_isBlank (ha c hc),
    fun c hc => isSeparator_of_isBlank (hb c hc)⟩⟩

/-- A string without blanks is a word of itself. -/
theorem contains_list_concat (word : List Char) (vs : List (List Char)) :
    (Value.list (vs ++ [word])).Contains word := by
  refine ⟨word, List.mem_append_right _ (List.mem_singleton_self _), hasWord_iff.2 ?_⟩
  refine ⟨[], [], ?_, ?_, ?_⟩
  · rw [List.nil_append, List.append_nil]
  · rintro c ⟨⟩
  · rintro c ⟨⟩

/-- The signs around an escaped quote are separators, as the quote itself. -/
theorem hasWord_escape (hne : word ≠ []) (hword : ∀ c ∈ word, isWordChar c = true)
    (x u : List Char) :
    hasWord isSeparator word (x ++ escape u) = true ↔ hasWord isSeparator word (x ++ u) = true := by
  have hseparator := isSeparator_eq_false hword
  induction u generalizing x with
  | nil => exact Iff.rfl
  | cons d u ih =>
      rw [escape_cons]
      by_cases hd : d = '\''
      · have hrest : hasWord isSeparator word (escape u) = true ↔
            hasWord isSeparator word u = true := ih []
        rw [if_pos hd, hd, List.cons_append, List.cons_append, List.cons_append, List.cons_append,
          List.nil_append, hasWord_separated hne hseparator rfl, hasWord_cons hne hseparator rfl,
          hasWord_cons hne hseparator rfl, hasWord_cons hne hseparator rfl,
          hasWord_separated hne hseparator rfl, hrest]
      · have hrest := ih (x ++ [d])
        rw [List.append_assoc, List.append_assoc] at hrest
        rw [if_neg hd]
        exact hrest

theorem hasWord_quote (hne : word ≠ []) (hword : ∀ c ∈ word, isWordChar c = true)
    (u : List Char) :
    hasWord isSeparator word (quote u) = true ↔ hasWord isSeparator word u = true := by
  have hseparator := isSeparator_eq_false hword
  rw [quote, hasWord_cons hne hseparator rfl, hasWord_concat hne hseparator rfl]
  exact hasWord_escape hne hword [] u

theorem hasWord_quoteBlanks (hne : word ≠ []) (hword : ∀ c ∈ word, isWordChar c = true)
    (u : List Char) :
    hasWord isSeparator word (quoteBlanks u) = true ↔ hasWord isSeparator word u = true := by
  rw [quoteBlanks]
  split
  · exact hasWord_quote hne hword u
  · exact Iff.rfl

theorem hasWord_spaced (hne : word ≠ []) (hword : ∀ c ∈ word, isWordChar c = true)
    (ts : List (List Char)) :
    hasWord isSeparator word (spaced ts) = true ↔ ∃ t ∈ ts, hasWord isSeparator word t = true := by
  induction ts with
  | nil =>
      refine iff_of_false (hasWord_nil hne) ?_
      rintro ⟨t, ht, -⟩
      cases ht
  | cons t ts ih =>
      rw [List.exists_mem_cons_iff, ← ih]
      cases ts with
      | nil => exact (or_iff_left (hasWord_nil hne)).symm
      | cons w ts =>
          rw [spaced]
          exact hasWord_separated hne (isSeparator_eq_false hword) rfl t _

/-- **`grep -w` finds in what `uci get` prints exactly the words of the strings.** -/
theorem countWord_printed (hne : word ≠ []) (hword : ∀ c ∈ word, isWordChar c = true)
    (v : Value) : countWord word v.printed ≠ 0 ↔ v.Mentions word := by
  rw [countWord_ne_zero_iff hne hword, Value.Mentions]
  cases v with
  | str u =>
      rw [Value.printed, hasWord_concat hne (isSeparator_eq_false hword) rfl, Value.values,
        List.exists_mem_cons_iff]
      refine (or_iff_left ?_).symm
      rintro ⟨t, ht, -⟩
      cases ht
  | list us =>
      rw [Value.printed, hasWord_concat hne (isSeparator_eq_false hword) rfl,
        hasWord_spaced hne hword]
      simp only [List.mem_map, exists_exists_and_eq_and, hasWord_quoteBlanks hne hword,
        Value.values]

end Words

end Uci

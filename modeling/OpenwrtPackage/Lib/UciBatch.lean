/-
**Sections that are set.**

`uci batch` sets the sections of a package and their options one by one: what is not there yet is
put behind what is there, and an option that is set to nothing is deleted.

* `UciBatch.Section`, `UciBatch.Command`, `UciBatch.batch` — sections, `set`, and many of them;
* `UciBatch.get_setOption` — the options after one has been set;
* `UciBatch.batch_append` — **commands for other sections leave a package as it is**;
* `UciBatch.batch_create` — a section that is made.
-/
import Mathlib.Data.List.Basic

set_option relaxedAutoImplicit false
set_option autoImplicit false

namespace UciBatch

abbrev Word := List Char

/-- A section, with its options and their values. -/
structure Section where
  name : Word
  type : Word
  options : List (Word × Word)
  deriving DecidableEq

/-- The value of an option; empty when it is not there. -/
def getOption (option : Word) (os : List (Word × Word)) : Word :=
  ((os.find? fun o => o.1 = option).map Prod.snd).getD []

/-- `config_get` -/
def Section.get (s : Section) (option : Word) : Word := getOption option s.options

/-- A command of the batch. -/
inductive Command where
  /-- `set package.name=type` -/
  | create (name type : Word)
  /-- `set package.name.option=value` -/
  | set (name option value : Word)

def Command.section : Command → Word
  | .create name _ => name
  | .set name _ _ => name

/-- An option gets a value. -/
def putOption (option value : Word) : List (Word × Word) → List (Word × Word)
  | [] => [(option, value)]
  | o :: os => if o.1 = option then (option, value) :: os else o :: putOption option value os

/-- An option is set; to nothing, it is deleted. -/
def setOption (option value : Word) (os : List (Word × Word)) : List (Word × Word) :=
  if value = [] then os.filter fun o => o.1 ≠ option else putOption option value os

def create (name type : Word) : List Section → List Section
  | [] => [⟨name, type, []⟩]
  | s :: ss => if s.name = name then { s with type := type } :: ss else s :: create name type ss

def set (name option value : Word) : List Section → List Section
  | [] => []
  | s :: ss =>
      if s.name = name then { s with options := setOption option value s.options } :: ss
      else s :: set name option value ss

def apply (ss : List Section) : Command → List Section
  | .create name type => create name type ss
  | .set name option value => set name option value ss

/-- `uci batch` -/
def batch (cs : List Command) (ss : List Section) : List Section := cs.foldl apply ss

/-! ### One option -/

theorem getOption_cons (option : Word) (o : Word × Word) (os : List (Word × Word)) :
    getOption option (o :: os) = if o.1 = option then o.2 else getOption option os := by
  rw [getOption, List.find?_cons]
  by_cases h : o.1 = option
  · simp [h]
  · simp [h, getOption]

/-- What is behind some options counts when it is not among them. -/
theorem getOption_append {option : Word} (os : List (Word × Word)) {as bs : List (Word × Word)}
    (h : getOption option as = getOption option bs) :
    getOption option (os ++ as) = getOption option (os ++ bs) := by
  induction os with
  | nil => exact h
  | cons o os ih => rw [List.cons_append, List.cons_append, getOption_cons, getOption_cons, ih]

theorem getOption_putOption (option name value : Word) (os : List (Word × Word)) :
    getOption option (putOption name value os) =
      if name = option then value else getOption option os := by
  induction os with
  | nil => rw [putOption, getOption_cons]
  | cons o os ih =>
      rw [putOption]
      by_cases ho : o.1 = name
      · rw [if_pos ho, getOption_cons, getOption_cons, ho]
        split
        · rfl
        · rfl
      · rw [if_neg ho, getOption_cons, getOption_cons, ih]
        by_cases hname : name = option
        · rw [if_pos hname, if_pos hname, if_neg (hname ▸ ho)]
        · rw [if_neg hname, if_neg hname]

theorem getOption_filter (option name : Word) (os : List (Word × Word)) :
    getOption option (os.filter fun o => o.1 ≠ name) =
      if name = option then [] else getOption option os := by
  induction os with
  | nil =>
      split
      · rfl
      · rfl
  | cons o os ih =>
      rw [List.filter_cons, getOption_cons]
      by_cases ho : o.1 = name
      · rw [if_neg (by simpa using ho), ih, ho]
        split
        · rfl
        · rfl
      · rw [if_pos (by simpa using ho), getOption_cons, ih]
        by_cases hname : name = option
        · rw [if_pos hname, if_pos hname, if_neg (hname ▸ ho)]
        · rw [if_neg hname, if_neg hname]

/-- **The options after one has been set.** -/
theorem get_setOption (option name value : Word) (os : List (Word × Word)) :
    getOption option (setOption name value os) =
      if name = option then value else getOption option os := by
  rw [setOption]
  split
  · next h => rw [getOption_filter, h]
  · exact getOption_putOption option name value os

/-! ### Other sections -/

section Append

variable {ss : List Section} {name : Word}

theorem create_append (h : name ∉ ss.map Section.name) (type : Word) (ts : List Section) :
    create name type (ss ++ ts) = ss ++ create name type ts := by
  induction ss with
  | nil => rfl
  | cons s ss ih =>
      rw [List.map_cons] at h
      obtain ⟨hs, hss⟩ := List.ne_and_not_mem_of_not_mem_cons h
      rw [List.cons_append, create, if_neg (Ne.symm hs), ih hss]
      rfl

theorem set_append (h : name ∉ ss.map Section.name) (option value : Word) (ts : List Section) :
    set name option value (ss ++ ts) = ss ++ set name option value ts := by
  induction ss with
  | nil => rfl
  | cons s ss ih =>
      rw [List.map_cons] at h
      obtain ⟨hs, hss⟩ := List.ne_and_not_mem_of_not_mem_cons h
      rw [List.cons_append, set, if_neg (Ne.symm hs), ih hss]
      rfl

theorem apply_append {c : Command} (h : c.section ∉ ss.map Section.name) (ts : List Section) :
    apply (ss ++ ts) c = ss ++ apply ts c := by
  cases c with
  | create name type => exact create_append h type ts
  | set name option value => exact set_append h option value ts

/-- **Commands for other sections leave a package as it is.** -/
theorem batch_append {cs : List Command} (h : ∀ c ∈ cs, c.section ∉ ss.map Section.name)
    (ts : List Section) : batch cs (ss ++ ts) = ss ++ batch cs ts := by
  induction cs generalizing ts with
  | nil => rfl
  | cons c cs ih =>
      obtain ⟨hc, hcs⟩ := List.forall_mem_cons.1 h
      rw [batch, List.foldl_cons, apply_append hc]
      exact ih hcs (apply ts c)

end Append

/-! ### A new section -/

/-- The options of one section are set. -/
def setOptions (name : Word) (os : List (Word × Word)) : List Command :=
  os.map fun o => .set name o.1 o.2

theorem section_of_mem {name type : Word} {os : List (Word × Word)} {c : Command}
    (h : c ∈ Command.create name type :: setOptions name os) : c.section = name := by
  rcases List.mem_cons.1 h with rfl | h
  · rfl
  · obtain ⟨o, -, rfl⟩ := List.mem_map.1 h
    rfl

/-- The options that a section has when they have been set one by one. -/
def optionsOf (os : List (Word × Word)) : List (Word × Word) :=
  os.foldl (fun acc o => setOption o.1 o.2 acc) []

/-- What has been set last. -/
theorem get_optionsOf (option : Word) (os : List (Word × Word)) :
    getOption option (optionsOf os) = getOption option os.reverse := by
  have hfold : ∀ acc : List (Word × Word),
      getOption option (os.foldl (fun acc o => setOption o.1 o.2 acc) acc) =
        getOption option (os.reverse ++ acc) := by
    induction os with
    | nil => exact fun _ => rfl
    | cons o os ih =>
        intro acc
        have hfirst : getOption option (setOption o.1 o.2 acc) = getOption option (o :: acc) := by
          rw [get_setOption, getOption_cons]
        rw [List.foldl_cons, ih, List.reverse_cons, List.append_assoc, List.singleton_append]
        exact getOption_append os.reverse hfirst
  have hall := hfold []
  rw [List.append_nil] at hall
  exact hall

/-- **A section is made behind the others, and its options are set.** -/
theorem batch_create {ss : List Section} {name : Word} (h : name ∉ ss.map Section.name)
    (type : Word) (os : List (Word × Word)) :
    batch (.create name type :: setOptions name os) ss = ss ++ [⟨name, type, optionsOf os⟩] := by
  have hset : ∀ (options : List (Word × Word)), batch (setOptions name os) [⟨name, type, options⟩] =
      [⟨name, type, os.foldl (fun acc o => setOption o.1 o.2 acc) options⟩] := by
    induction os with
    | nil => exact fun _ => rfl
    | cons o os ih =>
        intro options
        have hfirst : apply [⟨name, type, options⟩] (.set name o.1 o.2) =
            [⟨name, type, setOption o.1 o.2 options⟩] := by
          rw [apply, set, if_pos rfl]
        rw [setOptions, List.map_cons, batch, List.foldl_cons, hfirst]
        exact ih (setOption o.1 o.2 options)
  have happend := @batch_append ss (.create name type :: setOptions name os)
    (fun c hc => section_of_mem hc ▸ h) []
  rw [List.append_nil] at happend
  rw [happend]
  exact congrArg (ss ++ ·) (hset [])

end UciBatch

/-
**Scripts that may exit.**

A run of a script is what it does and the status it exits with, if it exits.  Commands run one
after the other, and nothing runs behind an exit.

* `Script.Run`, `Script.Run.seq`, `Script.runAll` — runs, and commands in a row;
* `Script.mem_seq`, `Script.exit_seq` — **what happens in a row, and when the end is reached**;
* `Script.mem_exitIf`, `Script.exit_exitIf` — a check that ends the script.
-/
import Mathlib.Data.List.Basic

set_option relaxedAutoImplicit false
set_option autoImplicit false

namespace Script

variable {ε : Type}

/-- A run of a piece of a script. -/
structure Run (ε : Type) where
  events : List ε
  exit : Option ℕ
  deriving DecidableEq

/-- A command that does these things. -/
def emit (es : List ε) : Run ε := ⟨es, none⟩

/-- A command that does nothing. -/
def skip : Run ε := emit []

/-- Do these things and `exit`. -/
def exitWith (es : List ε) (status : ℕ) : Run ε := ⟨es, some status⟩

/-- One command behind another. -/
def Run.seq (a b : Run ε) : Run ε :=
  match a.exit with
  | some status => ⟨a.events, some status⟩
  | none => ⟨a.events ++ b.events, b.exit⟩

/-- Commands in a row. -/
def runAll : List (Run ε) → Run ε
  | [] => skip
  | r :: rs => r.seq (runAll rs)

/-- `[ c ] && { …; exit status }` -/
def exitIf (c : Prop) [Decidable c] (es : List ε) (status : ℕ) : Run ε :=
  if c then exitWith es status else skip

@[simp] theorem runAll_nil : runAll ([] : List (Run ε)) = skip := rfl

@[simp] theorem runAll_cons (r : Run ε) (rs : List (Run ε)) :
    runAll (r :: rs) = r.seq (runAll rs) := rfl

@[simp] theorem emit_events (es : List ε) : (emit es).events = es := rfl

@[simp] theorem emit_exit (es : List ε) : (emit es).exit = none := rfl

@[simp] theorem skip_events : (skip : Run ε).events = [] := rfl

@[simp] theorem skip_exit : (skip : Run ε).exit = none := rfl

@[simp] theorem exitWith_events (es : List ε) (status : ℕ) :
    (exitWith es status).events = es := rfl

@[simp] theorem exitWith_exit (es : List ε) (status : ℕ) :
    (exitWith es status).exit = some status := rfl

/-- What the second command does happens when the first one does not exit. -/
@[simp] theorem mem_seq (a b : Run ε) (e : ε) :
    e ∈ (a.seq b).events ↔ e ∈ a.events ∨ a.exit = none ∧ e ∈ b.events := by
  rw [Run.seq]
  cases a.exit with
  | none => simp
  | some status => simp

@[simp] theorem exit_seq (a b : Run ε) : (a.seq b).exit = none ↔ a.exit = none ∧ b.exit = none := by
  rw [Run.seq]
  cases a.exit with
  | none => simp
  | some status => simp

@[simp] theorem mem_exitIf (c : Prop) [Decidable c] (es : List ε) (status : ℕ) (e : ε) :
    e ∈ (exitIf c es status).events ↔ c ∧ e ∈ es := by
  rw [exitIf]
  by_cases h : c
  · simp [h]
  · simp [h]

@[simp] theorem exit_exitIf (c : Prop) [Decidable c] (es : List ε) (status : ℕ) :
    (exitIf c es status).exit = none ↔ ¬ c := by
  rw [exitIf]
  by_cases h : c
  · simp [h]
  · simp [h]

/-- Something that no command of a row does but the last happens when none of them exits. -/
theorem mem_runAll_append_last {rs : List (Run ε)} {last : Run ε} {e : ε}
    (h : ∀ r ∈ rs, e ∉ r.events) :
    e ∈ (runAll (rs ++ [last])).events ↔ (∀ r ∈ rs, r.exit = none) ∧ e ∈ last.events := by
  induction rs with
  | nil => simp
  | cons r rs ih =>
      have hr := h r (List.mem_cons_self ..)
      have hrs := ih fun r' hr' => h r' (List.mem_cons_of_mem _ hr')
      rw [List.cons_append, runAll_cons, mem_seq, hrs]
      simp [hr, and_assoc]

end Script

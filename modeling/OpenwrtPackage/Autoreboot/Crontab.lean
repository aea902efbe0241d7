/-
**The crontab of autoreboot.**

The service keeps a line in the crontab of root that reboots the router.  It finds its own line by
the word `reboot`: with every start and stop it deletes all lines that contain it, and appends its
line again when the reboot is enabled.

* `Autoreboot.runReboot`, `Autoreboot.startService`, `Autoreboot.stopService` — what the service
  does to the crontab;
* `Autoreboot.Holds` — the crontab in which a run begins: the lines of the others, and the line of
  the service when it has put one there before;
* `Autoreboot.Law`, `Autoreboot.LawAlong` — everybody else's lines are there in order, and the
  service has the line of the last action;
* `Autoreboot.Harmless` — what that takes of an action;
* `Autoreboot.law_iff` — **the law holds all along a run exactly when all its actions are
  harmless**.
-/
import OpenwrtPackage.Lib.EventRun
import OpenwrtPackage.Lib.Grep

set_option relaxedAutoImplicit false
set_option autoImplicit false

namespace Autoreboot

open Grep

/-! ### The service -/

/-- A section `login` of the configuration; an option that is not there is empty. -/
structure Login where
  enable : List Char
  week : List Char
  hour : List Char
  minute : List Char

/-- `config_get_bool` -/
def configGetBool (value : List Char) : List Char :=
  if value = ['1'] ∨ value = ['o', 'n'] ∨ value = ['t', 'r', 'u', 'e'] ∨
      value = ['y', 'e', 's'] ∨ value = ['e', 'n', 'a', 'b', 'l', 'e', 'd'] then ['1']
  else if value = ['0'] ∨ value = ['o', 'f', 'f'] ∨ value = ['f', 'a', 'l', 's', 'e'] ∨
      value = ['n', 'o'] ∨ value = ['d', 'i', 's', 'a', 'b', 'l', 'e', 'd'] then ['0']
  else []

/-- `[ $enable = 1 ]` -/
def Login.isEnabled (l : Login) : Bool := configGetBool l.enable = ['1']

/-- The pattern of `sed -i '/reboot/d'`. -/
def reboot : List Char := ['r', 'e', 'b', 'o', 'o', 't']

/-- `"$minute $hour * * $week sleep 5 && touch /etc/banner && reboot"` -/
def Login.cronLine (l : Login) : List Char :=
  let minute := if l.minute = ['0'] then ['0', '0'] else l.minute
  let week := if l.week = ['7'] then ['*'] else l.week
  minute ++ (' ' :: (l.hour ++ (" * * ".toList ++ (week ++
    (" sleep 5 && touch /etc/banner && ".toList ++ reboot)))))

/-- `run_reboot` -/
def runReboot (file : List Char) (l : Login) : List Char :=
  if l.isEnabled then deleteLines reboot file ++ (l.cronLine ++ ['\n'])
  else deleteLines reboot file

/-- `config_foreach run_reboot login` -/
def startService (file : List Char) (ls : List Login) : List Char := ls.foldl runReboot file

/-- `stop_service` -/
def stopService (file : List Char) : List Char := deleteLines reboot file

/-! ### Starts and stops -/

/-- What is done to the service; the configuration has one section `login`. -/
inductive Action where
  | start (l : Login)
  | stop

/-- The line that the service has behind an action. -/
def Action.own : Action → Option (List Char)
  | .start l => if l.isEnabled then some l.cronLine else none
  | .stop => none

/-- The crontab, and the line that the service should have in it. -/
structure Crontab where
  file : List Char
  own : Option (List Char)

/-- One action; a crontab that is not there is empty. -/
def step (s : Crontab) (a : Action) : Option Crontab :=
  some
    { file := match a with
        | .start l => startService s.file [l]
        | .stop => stopService s.file
      own := a.own }

/-- The text of the line of the service. -/
def ownText : Option (List Char) → List Char
  | none => []
  | some t => t ++ ['\n']

/-- The crontab is that of the others, and the service may have its line somewhere in it. -/
def Holds (others : List Char) (s : Crontab) : Prop :=
  ∃ front back, others = front ++ back ∧ s.file = front ++ (ownText s.own ++ back) ∧
    ∀ t ∈ s.own, (∃ l : Login, t = l.cronLine) ∧ '\n' ∉ t ∧ Ended front

/-- The lines of `others` are there, unchanged and in order, and besides them only the line of the
service. -/
def Law (others : List Char) (s : Crontab) : Prop :=
  ∃ front back, texts others = front ++ back ∧ texts s.file = front ++ (s.own.toList ++ back)

/-- The law holds all along a run. -/
def LawAlong (others : List Char) (s : Crontab) (as : List Action) : Prop :=
  ∀ t ∈ EventRun.states step s as, Law others t

/-- An action that touches no line of `others`: none of them contains the word, and when a line is
appended, it is one line and begins where a line begins. -/
def Harmless (others : List Char) (a : Action) : Prop :=
  (∀ t ∈ texts others, ¬ reboot <:+: t) ∧ ∀ t ∈ a.own, '\n' ∉ t ∧ Ended others

/-! ### One action -/

theorem reboot_infix_cronLine (l : Login) : reboot <:+: l.cronLine := by
  rw [Login.cronLine]
  refine List.IsSuffix.isInfix ?_
  exact (List.suffix_append _ _).trans ((List.suffix_append _ _).trans
    ((List.suffix_append _ _).trans ((List.suffix_append _ _).trans
      ((List.suffix_cons _ _).trans (List.suffix_append _ _)))))

theorem exists_of_own {a : Action} {t : List Char} (h : t ∈ a.own) :
    ∃ l : Login, t = l.cronLine := by
  cases a with
  | start l =>
      rw [Action.own] at h
      split at h
      · cases h
        exact ⟨l, rfl⟩
      · cases h
  | stop => cases h

theorem reboot_infix_own {a : Action} {t : List Char} (h : t ∈ a.own) : reboot <:+: t := by
  obtain ⟨l, rfl⟩ := exists_of_own h
  exact reboot_infix_cronLine l

/-- Every action deletes the lines with the word and appends its own line, if it has one. -/
theorem step_eq (s : Crontab) (a : Action) :
    step s a = some ⟨deleteLines reboot s.file ++ ownText a.own, a.own⟩ := by
  cases a with
  | start l =>
      show some (Crontab.mk (runReboot s.file l) (Action.own (.start l))) = _
      rw [runReboot, Action.own]
      split
      · rfl
      · rw [ownText, List.append_nil]
  | stop =>
      rw [Action.own, ownText, List.append_nil]
      rfl

theorem Holds.law {others : List Char} {s : Crontab} (h : Holds others s) : Law others s := by
  obtain ⟨front, back, rfl, hfile, hown⟩ := h
  cases ho : s.own with
  | none =>
      rw [ho, ownText, List.nil_append] at hfile
      refine ⟨texts (front ++ back), [], (List.append_nil _).symm, ?_⟩
      rw [hfile, ho, Option.toList_none, List.append_nil, List.append_nil]
  | some t =>
      obtain ⟨-, ht, hended⟩ := hown t ho
      refine ⟨texts front, texts back, texts_append_of_ended hended back, ?_⟩
      rw [hfile, ho, ownText, texts_append_of_ended hended, texts_append_of_ended (ended_concat t),
        texts_line ht]
      rfl

/-- The line of the service is deleted again, whatever becomes of the others. -/
theorem Holds.deleteLines_file {others : List Char} {s : Crontab} (h : Holds others s) :
    deleteLines reboot s.file = deleteLines reboot others := by
  obtain ⟨front, back, rfl, hfile, hown⟩ := h
  cases ho : s.own with
  | none => rw [hfile, ho, ownText, List.nil_append]
  | some t =>
      obtain ⟨⟨l, hl⟩, ht, hended⟩ := hown t ho
      have hreboot : reboot <:+: t := hl ▸ reboot_infix_cronLine l
      rw [hfile, ho, ownText, deleteLines_append_of_ended reboot hended,
        deleteLines_append_of_ended reboot (ended_concat t), deleteLines_line ht hreboot,
        deleteLines_append_of_ended reboot hended, List.nil_append]

/-- A harmless action puts the line of the service behind all others. -/
theorem step_holds {others : List Char} {s t : Crontab} {a : Action} (h : Holds others s)
    (ha : Harmless others a) (hstep : step s a = some t) : Holds others t := by
  rw [step_eq, h.deleteLines_file, deleteLines_eq_self ha.1] at hstep
  cases hstep
  refine ⟨others, [], (List.append_nil _).symm, ?_, ?_⟩
  · rw [List.append_nil]
  · intro line hline
    exact ⟨exists_of_own hline, ha.2 line hline⟩

/-- The number of lines with the word. -/
def rebootLines (ts : List (List Char)) : ℕ := ts.countP fun t => reboot <:+: t

theorem rebootLines_append (xs ys : List (List Char)) :
    rebootLines (xs ++ ys) = rebootLines xs + rebootLines ys := List.countP_append

theorem rebootLines_singleton {t : List Char} (h : reboot <:+: t) : rebootLines [t] = 1 := by
  rw [rebootLines, List.countP_singleton, if_pos (decide_eq_true h)]

theorem rebootLines_eq_zero {ts : List (List Char)} :
    rebootLines ts = 0 ↔ ∀ t ∈ ts, ¬ reboot <:+: t := by
  rw [rebootLines, List.countP_eq_zero]
  simp only [decide_eq_true_iff]

theorem rebootLines_deleteLines (file : List Char) :
    rebootLines (texts (deleteLines reboot file)) = 0 :=
  rebootLines_eq_zero.2 fun _ ht => not_infix_of_mem_texts ht

/-- Any other action breaks the law at once. -/
theorem step_not_law {others : List Char} {s t : Crontab} {a : Action} (h : Holds others s)
    (ha : ¬ Harmless others a) (hstep : step s a = some t) : ¬ Law others t := by
  rintro ⟨front, back, hothers, hfile⟩
  rw [step_eq, h.deleteLines_file] at hstep
  cases hstep
  have hnone := rebootLines_deleteLines others
  refine ha ?_
  cases hown : a.own with
  | none =>
      rw [hown, ownText, List.append_nil, Option.toList_none, List.nil_append, ← hothers] at hfile
      rw [hfile] at hnone
      refine ⟨rebootLines_eq_zero.1 hnone, ?_⟩
      rw [hown]
      rintro line ⟨⟩
  | some line =>
      have hreboot := reboot_infix_own hown
      rw [hown, ownText, Option.toList_some] at hfile
      have hline : '\n' ∉ line := by
        refine @not_mem_of_mem_texts (deleteLines reboot others ++ (line ++ ['\n'])) line ?_
        rw [hfile]
        simp
      have hcount := congrArg rebootLines hfile
      have hlength := congrArg List.length hfile
      have hothersCount := congrArg rebootLines hothers
      have hothersLength := congrArg List.length hothers
      rw [rebootLines_append, rebootLines_append, rebootLines_singleton hreboot] at hcount
      rw [List.length_append, List.length_append, List.length_singleton] at hlength
      rw [rebootLines_append] at hothersCount
      rw [List.length_append] at hothersLength
      by_cases hended : Ended (deleteLines reboot others)
      · rw [texts_append_of_ended hended, texts_line hline, rebootLines_append,
          rebootLines_singleton hreboot] at hcount
        have hclean := rebootLines_eq_zero.1 (by omega : rebootLines (texts others) = 0)
        rw [deleteLines_eq_self hclean] at hended
        refine ⟨hclean, ?_⟩
        rw [hown]
        rintro t ⟨⟩
        exact ⟨hline, hended⟩
      · -- The line went on where the last line of the others ended, so there is no line more.
        obtain ⟨ls, g, -, hbefore, hbehind⟩ := texts_append_of_not_ended hended hline
        have hmerged : reboot <:+: g ++ line := hreboot.trans (List.suffix_append g line).isInfix
        rw [hbefore, rebootLines_append] at hnone
        rw [hbehind, rebootLines_append, rebootLines_singleton hmerged] at hcount
        have hclean := rebootLines_eq_zero.1 (by omega : rebootLines (texts others) = 0)
        rw [deleteLines_eq_self hclean] at hbefore
        rw [hbehind, List.length_append, List.length_singleton] at hlength
        rw [hbefore, List.length_append, List.length_singleton] at hothersLength
        omega

/-- **All along a run everybody else's lines are unchanged and in order, and the service has exactly
the line of the last action, if and only if all actions are harmless.** -/
theorem law_iff {others : List Char} {s : Crontab} (hs : Holds others s) (as : List Action) :
    LawAlong others s as ↔ ∀ a ∈ as, Harmless others a := by
  have hiff := @EventRun.holds_iff _ _ step (Holds others) (Law others) (fun _ _ => True)
    (fun _ a => Harmless others a) (fun _ h => h.law) (fun _ _ _ hs _ ha h => step_holds hs ha h)
    (fun _ _ _ hs _ ha h => step_not_law hs ha h) s as hs (fun _ _ => trivial)
  rw [LawAlong, hiff]
  exact EventRun.forall_moves_iff fun _ _ => rfl

/-- A crontab that the service has not touched. -/
theorem holds_self (others : List Char) : Holds others ⟨others, none⟩ := by
  refine ⟨others, [], (List.append_nil _).symm, ?_, ?_⟩
  · rw [ownText, List.nil_append, List.append_nil]
  · rintro t ⟨⟩

/-- A job that can stay: `5 4 * * * sync`. -/
def syncJob : List Char :=
  ['5', ' ', '4', ' ', '*', ' ', '*', ' ', '*', ' ', 's', 'y', 'n', 'c', '\n']

/-- A reboot at five on Wednesdays. -/
def wednesday : Login := ⟨['1'], ['3'], ['5'], ['0']⟩

/-- The reboot is switched on again, made a daily one, and switched off. -/
theorem law_sync : LawAlong syncJob
    ⟨wednesday.cronLine ++ ['\n'] ++ syncJob, some wednesday.cronLine⟩
    [.start wednesday, .start { wednesday with week := ['7'] }, .stop] := by
  refine (@law_iff syncJob _ ?_ _).2 ?_
  · refine ⟨[], syncJob, rfl, rfl, ?_⟩
    rintro t ⟨⟩
    exact ⟨⟨wednesday, rfl⟩, by decide, .inl rfl⟩
  · have hsync : ∀ t ∈ texts syncJob, ¬ reboot <:+: t := by decide
    intro a ha
    refine ⟨hsync, ?_⟩
    intro t ht
    refine ⟨?_, by decide⟩
    simp only [List.mem_cons, List.not_mem_nil, or_false] at ha
    rcases ha with rfl | rfl | rfl
    · cases ht
      decide
    · cases ht
      decide
    · cases ht

/-- A job of somebody else that notes reboots. -/
def noteReboot : List Char := ['n', 'o', 't', 'e', '-', 'r', 'e', 'b', 'o', 'o', 't', '\n']

/-- The job is gone when the service is stopped. -/
theorem noteReboot_lost : ¬ ∀ (others : List Char) (s : Crontab) (as : List Action),
    Holds others s → LawAlong others s as := by
  intro hall
  obtain ⟨front, back, hothers, hfile⟩ := hall noteReboot ⟨noteReboot, none⟩ [.stop]
    (holds_self noteReboot) ⟨[], none⟩ (by
      have hgone : stopService noteReboot = [] := by decide
      have hstep : step ⟨noteReboot, none⟩ .stop = some ⟨[], none⟩ := by
        rw [step, hgone]
        rfl
      rw [EventRun.states_cons_some hstep]
      exact List.mem_cons_of_mem _ (List.mem_singleton_self _))
  have hboth : texts noteReboot = texts [] := hothers.trans hfile.symm
  revert hboth
  decide

end Autoreboot

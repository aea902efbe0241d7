/-
**The firewall zone of the modem.**

`set_firewall` puts an interface into the zone `wan`.  It takes the number of lines of
`uci show firewall` that contain `name='wan'` for the number of the zone, and looks with `grep -w`
whether the zone has the interface already.

* `Hypermodem.setFirewall` — the function;
* `Hypermodem.joinZone` — what it is for: the interface is added to a zone that does not have it;
* `Hypermodem.Joins` — it does that, and once more nothing;
* `Hypermodem.wanNames`, `Hypermodem.Mentions` — the options that the function counts and the
  interfaces that it finds, with `Hypermodem.setFirewall_eq`;
* `Hypermodem.joins_iff` — **the packages for which it joins the zone**.
-/
import OpenwrtPackage.Lib.Uci

set_option relaxedAutoImplicit false
set_option autoImplicit false

namespace Hypermodem

open Grep Uci

/-! ### The function -/

/-- A name that is written down. -/
def nameOf (text : List Char) (h : text.all isNameChar = true) : Name :=
  ⟨text, List.all_eq_true.1 h⟩

def firewall : Name := nameOf ['f', 'i', 'r', 'e', 'w', 'a', 'l', 'l'] rfl

def zone : Name := nameOf ['z', 'o', 'n', 'e'] rfl

def network : Name := nameOf ['n', 'e', 't', 'w', 'o', 'r', 'k'] rfl

def name : Name := nameOf ['n', 'a', 'm', 'e'] rfl

def wan : List Char := ['w', 'a', 'n']

/-- The name of a network interface. -/
structure Interface where
  text : List Char
  ne_nil : text ≠ []
  isWord : ∀ c ∈ text, isWordChar c = true

/-- `uci -q get firewall.@zone[$num].network | grep -w "${interface_name}" | wc -l` -/
def wwanNum (i : Interface) (ss : List Section) (num : ℕ) : ℕ :=
  match ((sectionsOf zone ss)[num]?).bind (fun z => z.get network) with
  | none => 0
  | some v => countWord i.text v.printed

/-- `set_firewall` -/
def setFirewall (i : Interface) (ss : List Section) : List Section :=
  let num := count (assign name.text wan) (printPackage firewall ss)
  if wwanNum i ss num = 0 then addListAt zone network i.text num ss else ss

/-! ### What it is for -/

/-- The zone with the number `k` has the interface. -/
def InZone (i : Interface) (ss : List Section) (k : ℕ) : Prop :=
  ∃ v ∈ ((sectionsOf zone ss)[k]?).bind (fun z => z.get network), v.Contains i.text

instance (i : Interface) (ss : List Section) (k : ℕ) : Decidable (InZone i ss k) :=
  inferInstanceAs (Decidable (∃ v ∈ _, _))

/-- The interface is added to the zone, unless the zone has it. -/
def joinZone (i : Interface) (k : ℕ) (ss : List Section) : List Section :=
  if InZone i ss k then ss else addListAt zone network i.text k ss

/-- The interface joins the zone `k` and no other one, and only once. -/
def Joins (i : Interface) (k : ℕ) (ss : List Section) : Prop :=
  setFirewall i ss = joinZone i k ss ∧ setFirewall i (setFirewall i ss) = setFirewall i ss

/-- The zone `k` is the only one with the name `wan`. -/
structure OnlyWan (ss : List Section) (k : ℕ) : Prop where
  isWan : ∃ z, (sectionsOf zone ss)[k]? = some z ∧ z.get name = some (.str wan)
  only : ∀ j z, (sectionsOf zone ss)[j]? = some z → z.get name = some (.str wan) → j = k

theorem OnlyWan.lt_length {ss : List Section} {k : ℕ} (h : OnlyWan ss k) :
    k < (sectionsOf zone ss).length := by
  obtain ⟨z, hz, -⟩ := h.isWan
  exact (List.getElem?_eq_some_iff.1 hz).1

/-! ### What it does -/

/-- The options with a name that ends with `name` and the value `wan`, in all sections. -/
def wanNames (ss : List Section) : ℕ := (optionsOf ss).countP fun o => o.Assigns name.text wan

/-- A string of the zone has the interface as a word, whatever stands around it. -/
def Mentions (i : Interface) (ss : List Section) (k : ℕ) : Prop :=
  ∃ v ∈ ((sectionsOf zone ss)[k]?).bind (fun z => z.get network), v.Mentions i.text

instance (i : Interface) (ss : List Section) (k : ℕ) : Decidable (Mentions i ss k) :=
  inferInstanceAs (Decidable (∃ v ∈ _, _))

section Function

variable {i : Interface} {ss : List Section} {k n : ℕ}

/-- `grep -w` finds the interface in what the strings of the zone mention. -/
theorem wwanNum_ne_zero_iff (i : Interface) (ss : List Section) (k : ℕ) :
    wwanNum i ss k ≠ 0 ↔ Mentions i ss k := by
  rw [wwanNum, Mentions]
  cases ((sectionsOf zone ss)[k]?).bind (fun z => z.get network) with
  | none =>
      refine iff_of_false (not_not_intro rfl) ?_
      rintro ⟨v, hv, -⟩
      cases hv
  | some v =>
      rw [countWord_printed i.ne_nil i.isWord]
      constructor
      · intro h
        exact ⟨v, rfl, h⟩
      · rintro ⟨w, hw, h⟩
        cases hw
        exact h

/-- The number of the zone is the number of the options. -/
theorem setFirewall_eq (i : Interface) (ss : List Section) :
    setFirewall i ss = if Mentions i ss (wanNames ss) then ss
      else addListAt zone network i.text (wanNames ss) ss := by
  have hcount : count (assign name.text wan) (printPackage firewall ss) = wanNames ss :=
    count_printPackage name.isName (List.all_eq_true.1 rfl) firewall ss
  rw [setFirewall, hcount]
  by_cases h : Mentions i ss (wanNames ss)
  · rw [if_pos h, if_neg ((wwanNum_ne_zero_iff i ss _).2 h)]
  · rw [if_neg h, if_pos (of_not_not fun hne => h ((wwanNum_ne_zero_iff i ss _).1 hne))]

theorem mentions_of_inZone (h : InZone i ss k) : Mentions i ss k := by
  obtain ⟨v, hv, hcontains⟩ := h
  exact ⟨v, hv, hcontains.mentions⟩

/-- Interfaces do not count as names. -/
theorem countP_addTo {p : Opt → Bool} {nm : Name} (hp : ∀ o : Opt, o.name = nm → p o = false)
    (v : List Char) (os : List Opt) : (addTo nm v os).countP p = os.countP p := by
  induction os with
  | nil => exact List.countP_cons_of_neg (by rw [hp _ rfl]; exact Bool.false_ne_true)
  | cons o os ih =>
      rw [addTo]
      split
      · rename_i ho
        rw [List.countP_cons, List.countP_cons, hp o ho, hp ⟨o.name, .list _⟩ ho]
      · rw [List.countP_cons, List.countP_cons, ih]

theorem wanNames_addListAt (v : List Char) (n : ℕ) (ss : List Section) :
    wanNames (addListAt zone network v n ss) = wanNames ss := by
  have hnetwork : ∀ o : Opt, o.name = network → decide (o.Assigns name.text wan) = false := by
    intro o ho
    rw [decide_eq_false_iff_not]
    rintro ⟨hsuffix, -⟩
    rw [ho] at hsuffix
    revert hsuffix
    decide
  induction ss generalizing n with
  | nil => rfl
  | cons s ss ih =>
      have hcons : ∀ (t : Section) (ts : List Section), wanNames (t :: ts) =
          (t.options.countP fun o => o.Assigns name.text wan) + wanNames ts := by
        intro t ts
        rw [wanNames, optionsOf, List.flatMap_cons, List.countP_append, wanNames, optionsOf]
      rw [addListAt]
      split
      · rw [hcons, hcons, ih]
      · split
        · rw [hcons, hcons, Section.addList, countP_addTo hnetwork]
        · rw [hcons, hcons, ih]

/-- What is added to a zone is in the zone. -/
theorem inZone_addListAt (hk : k < (sectionsOf zone ss).length) :
    InZone i (addListAt zone network i.text k ss) k := by
  refine ⟨_, ?_, contains_list_concat i.text
    ((((sectionsOf zone ss)[k].get network).map Value.values).getD [])⟩
  rw [sectionsOf_addListAt, List.getElem?_modify_eq, List.getElem?_eq_getElem hk]
  exact get_addList network i.text _

/-- Adding to a zone changes this zone, and no other one. -/
theorem addListAt_ne {v : List Char} (hn : n < (sectionsOf zone ss).length) :
    (sectionsOf zone (addListAt zone network v n ss))[n]? ≠ (sectionsOf zone ss)[n]? := by
  rw [sectionsOf_addListAt, List.getElem?_modify_eq, List.getElem?_eq_getElem hn]
  intro heq
  have hsame : ((sectionsOf zone ss)[n]).addList network v = (sectionsOf zone ss)[n] :=
    Option.some.inj heq
  have hget := get_addList network v (sectionsOf zone ss)[n]
  rw [hsame] at hget
  rw [hget] at hget
  have hlen := congrArg (fun w : Option Value => (w.map fun w => w.values.length)) hget
  simp [Value.values] at hlen

theorem addListAt_other {v : List Char} (hne : n ≠ k) :
    (sectionsOf zone (addListAt zone network v n ss))[k]? = (sectionsOf zone ss)[k]? := by
  rw [sectionsOf_addListAt, List.getElem?_modify_ne _ _ hne]

/-- Only a zone that has the interface stays as it is. -/
theorem joinZone_eq_self_iff (hk : k < (sectionsOf zone ss).length) :
    joinZone i k ss = ss ↔ InZone i ss k := by
  rw [joinZone]
  split
  · rename_i h
    exact iff_of_true rfl h
  · rename_i h
    refine iff_of_false ?_ h
    intro heq
    exact addListAt_ne hk (congrArg (fun ts => (sectionsOf zone ts)[k]?) heq)

/-- It changes nothing when the zone with the number mentions the interface, or is not there. -/
theorem setFirewall_eq_self_iff : setFirewall i ss = ss ↔
    Mentions i ss (wanNames ss) ∨ (sectionsOf zone ss).length ≤ wanNames ss := by
  rw [setFirewall_eq]
  split
  · rename_i h
    exact iff_of_true rfl (.inl h)
  · rename_i h
    rw [or_iff_right h]
    constructor
    · intro heq
      refine not_lt.1 fun hlt => ?_
      exact addListAt_ne hlt (congrArg (fun ts => (sectionsOf zone ts)[wanNames ss]?) heq)
    · exact addListAt_of_le

/-- The right number is counted: the interface joins the zone unless the zone only mentions it. -/
theorem joins_of_eq (h : OnlyWan ss k) (hk : wanNames ss = k) :
    Joins i k ss ↔ (Mentions i ss k → InZone i ss k) := by
  have hlt := h.lt_length
  have heq := setFirewall_eq i ss
  rw [hk] at heq
  constructor
  · rintro ⟨hjoin, -⟩ hmentions
    rw [heq, if_pos hmentions] at hjoin
    exact (joinZone_eq_self_iff hlt).1 hjoin.symm
  · intro himp
    by_cases hmentions : Mentions i ss k
    · rw [if_pos hmentions] at heq
      refine ⟨?_, by rw [heq, heq]⟩
      rw [heq, joinZone, if_pos (himp hmentions)]
    · have hin : ¬ InZone i ss k := fun hin => hmentions (mentions_of_inZone hin)
      rw [if_neg hmentions] at heq
      refine ⟨?_, ?_⟩
      · rw [heq, joinZone, if_neg hin]
      · rw [heq, setFirewall_eq_self_iff, wanNames_addListAt, hk]
        exact .inl (mentions_of_inZone (inZone_addListAt hlt))

/-- A wrong number is counted: the interface does not join, so it must be in the zone, and no other
zone may get it. -/
theorem joins_of_ne (h : OnlyWan ss k) (hk : wanNames ss ≠ k) :
    Joins i k ss ↔ InZone i ss k ∧
      (Mentions i ss (wanNames ss) ∨ (sectionsOf zone ss).length ≤ wanNames ss) := by
  have hlt := h.lt_length
  rw [← setFirewall_eq_self_iff, ← joinZone_eq_self_iff hlt]
  constructor
  · rintro ⟨hjoin, -⟩
    have hzone : (sectionsOf zone (setFirewall i ss))[k]? = (sectionsOf zone ss)[k]? := by
      rw [setFirewall_eq]
      split
      · rfl
      · exact addListAt_other hk
    have hself : joinZone i k ss = ss := by
      rw [hjoin, joinZone] at hzone
      rw [joinZone_eq_self_iff hlt]
      refine of_not_not fun hin => ?_
      rw [if_neg hin] at hzone
      exact addListAt_ne hlt hzone
    exact ⟨hself, hjoin.trans hself⟩
  · rintro ⟨hself, hsame⟩
    exact ⟨hsame.trans hself.symm, congrArg (setFirewall i) hsame⟩

/-- **The interface joins the zone `wan`, only this one and only once, exactly when as many options
are counted as there are zones in front of it and the zone does not only mention the interface; or
when the zone has it already and nothing is done to the zone with the number that is counted.** -/
theorem joins_iff (h : OnlyWan ss k) :
    Joins i k ss ↔
      if wanNames ss = k then Mentions i ss k → InZone i ss k
      else InZone i ss k ∧
        (Mentions i ss (wanNames ss) ∨ (sectionsOf zone ss).length ≤ wanNames ss) := by
  by_cases hk : wanNames ss = k
  · rw [if_pos hk]
    exact joins_of_eq h hk
  · rw [if_neg hk]
    exact joins_of_ne h hk

end Function

/-! ### Two layouts -/

/-- A zone with a name and networks. -/
def zoneOf (text : List Char) (networks : List (List Char)) : Section :=
  ⟨none, zone, [⟨name, .str text⟩, ⟨network, .list networks⟩]⟩

def lan : List Char := ['l', 'a', 'n']

def guest : List Char := ['g', 'u', 'e', 's', 't']

/-- `wwan_5g` -/
def wwan5g : Interface where
  text := ['w', 'w', 'a', 'n', '_', '5', 'g']
  ne_nil := List.cons_ne_nil _ _
  isWord := List.all_eq_true.1 rfl

/-- The usual two zones. -/
def usual : List Section := [zoneOf lan [lan], zoneOf wan [wan]]

theorem onlyWan_usual : OnlyWan usual 1 where
  isWan := ⟨zoneOf wan [wan], rfl, rfl⟩
  only := by
    intro j z hz hname
    rcases j with _ | _ | j
    · cases hz
      revert hname
      decide
    · rfl
    · cases hz

theorem joins_usual : Joins wwan5g 1 usual := by
  have hcount : wanNames usual = 1 := by decide
  have hmentions : ¬ Mentions wwan5g usual 1 := by decide
  refine (joins_iff onlyWan_usual).2 ?_
  rw [if_pos hcount]
  intro h
  exact absurd h hmentions

/-- A zone more in front of `wan`. -/
def withGuest : List Section := [zoneOf lan [lan], zoneOf guest [guest], zoneOf wan [wan]]

theorem onlyWan_withGuest : OnlyWan withGuest 2 where
  isWan := ⟨zoneOf wan [wan], rfl, rfl⟩
  only := by
    intro j z hz hname
    rcases j with _ | _ | _ | j
    · cases hz
      revert hname
      decide
    · cases hz
      revert hname
      decide
    · rfl
    · cases hz

/-- The interface goes to the guests. -/
theorem withGuest_not_joins : ¬ ∀ (i : Interface) (ss : List Section) (k : ℕ),
    OnlyWan ss k → Joins i k ss := by
  intro hall
  have hcount : wanNames withGuest = 1 := by decide
  have hmentions : ¬ Mentions wwan5g withGuest 1 := by decide
  have hin : ¬ InZone wwan5g withGuest 2 := by decide
  obtain ⟨hjoin, -⟩ := hall wwan5g withGuest 2 onlyWan_withGuest
  rw [setFirewall_eq, hcount, if_neg hmentions, joinZone, if_neg hin] at hjoin
  revert hjoin
  decide

end Hypermodem

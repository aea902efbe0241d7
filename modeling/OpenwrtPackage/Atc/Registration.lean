/-
**Whether the modem is registered.**

`requestRegistrationState` of `atc.c` asks for the radio technology, and then with `AT+CGREG?`,
`AT+CEREG?` or `AT+C5GREG?` for the registration.  It guesses from the number of commas what the
fields of the answer are.

* `Atc.registrationState`, `Atc.requestRegistrationState` — the state in a line, and the function;
* `Atc.RegForm`, `Atc.RegLine` — the forms that the source documents;
* `Atc.requestRegistrationState_iff` — **the modem counts as attached exactly when its state is 1
  or 5, but for two of the forms**: of a state alone the prefix is read, and of a state with a cell
  the area code;
* `Atc.requestRegistrationState_bare` — a state alone.
-/
import OpenwrtPackage.Atc.Address
import OpenwrtPackage.Atc.Fields

set_option relaxedAutoImplicit false
set_option autoImplicit false

namespace Atc

open CScan

/-! ### `atc.c` -/

/-- `at_tok_count` -/
def atTokCount (inLine : List Char) : ℕ := inLine.count ','

/-- `cops_act` behind the loop over the lines of `+COPS`, which ends with the first; `none` is
`goto error`. -/
def copsAct : List (List Char) → Option ℤ
  | [] => some (-1)
  | line :: _ =>
      let r := atTokScanf line [.d, .d, .s, .d]
      if r.1 ≠ 4 then none else some (intOut r 3 (-1))

/-- The command that asks for the registration. -/
inductive RegCommand where
  | cgreg
  | cereg
  | c5greg
  deriving DecidableEq

/-- The `switch` over `cops_act`. -/
def regCommand (copsAct : ℤ) : Option RegCommand :=
  if copsAct = 2 ∨ copsAct = 4 ∨ copsAct = 5 ∨ copsAct = 6 then some .cgreg
  else if copsAct = 7 ∨ copsAct = 13 then some .cereg
  else if copsAct = 10 ∨ copsAct = 11 ∨ copsAct = 12 then some .c5greg
  else none

/-- A format with the number of fields it has to read, and which of them is the state. -/
def scanState (line : List Char) (fmt : List AtConv) (i : ℕ) : Option ℤ :=
  let r := atTokScanf line fmt
  if r.1 ≠ fmt.length then none else some (intOut r i 0)

/-- The `switch` over the number of commas: `state`, and `none` is `goto error`. -/
def registrationState (line : List Char) : Option ℤ :=
  match atTokCount line with
  | 0 =>
      let r := atTokNextint (some line)
      match r.ok, r.out with
      | true, some (.int n) => some n
      | _, _ => none
  | 1 => scanState line [.d, .d] 1
  -- The outputs are `NULL, &state, &lac, &cid`, though the format begins with the state.
  | 2 => scanState line [.d, .x, .x] 1
  | 3 => scanState line [.d, .d, .x, .x] 1
  | 4 => scanState line [.d, .d, .x, .x, .d] 1
  | 5 => scanState line [.d, .d, .x, .x, .d] 1
  | 6 => scanState line [.d, .d, .x, .x, .d] 1
  | 7 => scanState line [.d, .d, .x, .x, .d] 1
  | _ => none

/-- At home or roaming. -/
def Registered (state : ℤ) : Prop := state = 1 ∨ state = 5

instance (state : ℤ) : Decidable (Registered state) := inferInstanceAs (Decidable (_ ∨ _))

/-- `requestRegistrationState`: the result and `*pPSAttachedState`, with the answer to the question
for the operator, and the one to each command. -/
def requestRegistrationState (cops : AtAnswer) (ask : RegCommand → AtAnswer) : ℤ × UInt8 :=
  match cops.lines with
  | none => (-1, 0)
  | some copsLines =>
      match (copsAct copsLines).bind regCommand with
      | none => (0, 0)
      | some cmd =>
          match (ask cmd).lines with
          | some (line :: _) =>
              match registrationState line with
              | some state => (0, if Registered state then 1 else 0)
              | none => (0, 0)
          | _ => (0, 0)

/-! ### The documented forms -/

/-- What stands in front of the colon. -/
def RegCommand.front : RegCommand → List Char
  | .cgreg => "+CGREG".toList
  | .cereg => "+CEREG".toList
  | .c5greg => "+C5GREG".toList

/-- The forms of an answer. -/
inductive RegForm where
  | stat
  | nStat
  | statLacCid (lac : ℕ)
  | nStatLacCid
  | nStatLacCidAct
  deriving DecidableEq

/-- The fields of a form, with the state `stat`. -/
inductive RegFields (stat : ℤ) : RegForm → List AtField → Prop
  | stat : RegFields stat .stat [.int stat]
  | nStat (n : ℤ) : RegFields stat .nStat [.int n, .int stat]
  | statLacCid (lac cid : ℕ) : RegFields stat (.statLacCid lac) [.int stat, .hex lac, .hex cid]
  | nStatLacCid (n : ℤ) (lac cid : ℕ) :
      RegFields stat .nStatLacCid [.int n, .int stat, .hex lac, .hex cid]
  | nStatLacCidAct (n : ℤ) (lac cid : ℕ) (act : ℤ) :
      RegFields stat .nStatLacCidAct [.int n, .int stat, .hex lac, .hex cid, .int act]

/-- An answer to `cmd` in one of the forms; behind `<act>` up to three fields more may follow. -/
def RegLine (cmd : RegCommand) (stat : ℤ) (form : RegForm) (line : List Char) : Prop :=
  ∃ items rest, RegFields stat form (items.map Item.field) ∧ Ends rest ∧
    (if form = .nStatLacCidAct then rest.count ',' ≤ 3 else rest = []) ∧
    line = cmd.front ++ ':' :: (joined items ++ rest)

/-- What a form and its numbers have to be like: not a state alone that is registered; of a state
with a cell, an area code that says the same; of all others, no state that an `int` takes for a
registered one. -/
def RegForm.Faithful (stat : ℤ) : RegForm → Prop
  | .stat => ¬ Registered stat
  | .statLacCid lac => Registered (hexOf lac) ↔ Registered stat
  | _ => Registered (intOf stat) → Registered stat

/-! ### Reading the state -/

/-- The fields of a form are numbers. -/
theorem RegFields.spec {stat : ℤ} {form : RegForm} {fs : List AtField}
    (h : RegFields stat form fs) :
    fs ≠ [] ∧ ∀ f ∈ fs, f ≠ .placeholder ∧ ∀ s, f ≠ .str s := by
  cases h <;> simp

theorem RegCommand.front_spec (cmd : RegCommand) :
    ':' ∉ cmd.front ∧ cmd.front.count ',' = 0 := by
  cases cmd <;> decide

/-- The number of commas says how many fields there are. -/
theorem atTokCount_line (cmd : RegCommand) {stat : ℤ} {form : RegForm} {items : List Item}
    (h : RegFields stat form (items.map Item.field)) (rest : List Char) :
    atTokCount (cmd.front ++ ':' :: (joined items ++ rest)) + 1 =
      (items.map Item.field).length + rest.count ',' := by
  obtain ⟨hne, hnumber⟩ := h.spec
  have hitems : items ≠ [] := by
    rintro rfl
    exact hne rfl
  have hcount := count_comma_joined hitems fun i hi =>
    i.comma_notMem (hnumber _ (List.mem_map_of_mem hi)).2
  rw [atTokCount, List.count_append, cmd.front_spec.2, List.count_cons_of_ne (by decide),
    List.count_append, List.length_map]
  omega

/-- The state is one of the numbers that the format reads. -/
theorem scanState_eq {line : List Char} {fs : List AtField}
    (h : atTokScanf line (fs.map AtField.conv) = (fs.length, fs.map AtField.value)) {i : ℕ}
    {v : ℤ} (hv : (fs.map AtField.value).getD i none = some (.int v)) :
    scanState line (fs.map AtField.conv) i = some v := by
  have hcount : fs.length = (fs.map AtField.conv).length := (List.length_map _).symm
  unfold scanState intOut
  rw [h]
  dsimp only
  rw [if_neg (not_not.2 hcount), hv]

/-- No number begins with a plus and a letter. -/
theorem strtol_prefix (t : List Char) : strtol 10 ('+' :: 'C' :: t) = (0, false) := rfl

/-- Without a comma the number is looked for where the prefix stands. -/
theorem atTokNextint_front (cmd : RegCommand) (s : List Char) :
    (atTokNextint (some (cmd.front ++ s))).ok = false := by
  obtain ⟨t, ht⟩ : ∃ t, cmd.front ++ s = '+' :: 'C' :: t := by
    cases cmd <;> exact ⟨_, rfl⟩
  rw [ht]
  show (atTokNextintBase 10 false _).ok = false
  have htok : nextTok (some ('+' :: 'C' :: t)) =
      (some ('+' :: 'C' :: t.takeWhile (· ≠ ',')), (strsep ',' ('+' :: 'C' :: t)).2) := rfl
  unfold atTokNextintBase
  rw [htok]
  dsimp only
  rw [if_neg (by decide), strtol_prefix]

/-- What is taken for the state. -/
def RegForm.state (stat : ℤ) : RegForm → Option ℤ
  | .stat => none
  | .statLacCid lac => some (hexOf lac)
  | _ => some (intOf stat)

theorem registrationState_eq {cmd : RegCommand} {stat : ℤ} {form : RegForm} {line : List Char}
    (h : RegLine cmd stat form line) (hlen : line.length < sLineSize) :
    registrationState line = form.state stat := by
  obtain ⟨items, rest, hitems, hrest, hmore, rfl⟩ := h
  obtain ⟨hne, hnumber⟩ := hitems.spec
  have hcount := atTokCount_line cmd hitems rest
  have hscan := atTokScanf_fields cmd.front_spec.1 rfl hne (fun f hf => (hnumber f hf).1) hrest
    hlen
  have hfront := atTokNextint_front cmd (':' :: (joined items ++ rest))
  revert hcount hscan hfront
  generalize cmd.front ++ ':' :: (joined items ++ rest) = line at hlen ⊢
  generalize items.map Item.field = fs at hitems hne hnumber
  intro hcount hscan hfront
  have hcommas : atTokCount line = fs.length - 1 + rest.count ',' := by
    have hpos := List.length_pos_iff.2 hne
    omega
  cases hitems with
  | stat =>
      rw [if_neg (by decide)] at hmore
      subst hmore
      unfold registrationState
      rw [hcommas]
      simp [hfront]
      rfl
  | nStat n =>
      rw [if_neg (by decide)] at hmore
      subst hmore
      unfold registrationState
      rw [hcommas]
      have hstate := @scanState_eq line _ hscan 1 _ rfl
      exact hstate
  | statLacCid lac cid =>
      rw [if_neg (by simp)] at hmore
      subst hmore
      unfold registrationState
      rw [hcommas]
      have hstate := @scanState_eq line _ hscan 1 _ rfl
      exact hstate
  | nStatLacCid n lac cid =>
      rw [if_neg (by decide)] at hmore
      subst hmore
      unfold registrationState
      rw [hcommas]
      have hstate := @scanState_eq line _ hscan 1 _ rfl
      exact hstate
  | nStatLacCidAct n lac cid act =>
      rw [if_pos rfl] at hmore
      have hstate : scanState line [.d, .d, .x, .x, .d] 1 = some (intOf stat) := by
        have hread := @scanState_eq line _ hscan 1 _ rfl
        exact hread
      have hfields : rest.count ',' = 0 ∨ rest.count ',' = 1 ∨ rest.count ',' = 2 ∨
          rest.count ',' = 3 := by omega
      unfold registrationState
      rw [hcommas]
      rcases hfields with hk | hk | hk | hk
      · rw [hk]
        exact hstate
      · rw [hk]
        exact hstate
      · rw [hk]
        exact hstate
      · rw [hk]
        exact hstate

/-- A state that is registered is one for an `int`, too. -/
theorem Registered.intOf {stat : ℤ} (h : Registered stat) : Registered (intOf stat) := by
  rcases h with rfl | rfl
  · exact .inl (intOf_eq (by decide) (by decide))
  · exact .inr (intOf_eq (by decide) (by decide))

/-- **The modem counts as attached exactly when its state is 1 or 5, if and only if the form of
the answer is a faithful one.** -/
theorem requestRegistrationState_iff {cops : AtAnswer} {ask : RegCommand → AtAnswer}
    {copsLines : List (List Char)} {act : ℤ} {cmd : RegCommand} {stat : ℤ} {form : RegForm}
    {line : List Char} {more : List (List Char)} (hcops : cops.lines = some copsLines)
    (hact : copsAct copsLines = some act) (hcmd : regCommand act = some cmd)
    (hask : (ask cmd).lines = some (line :: more)) (h : RegLine cmd stat form line)
    (hlen : line.length < sLineSize) :
    ((requestRegistrationState cops ask).2 = 1 ↔ Registered stat) ↔ form.Faithful stat := by
  have hresult : (requestRegistrationState cops ask).2 =
      match form.state stat with
      | some state => if Registered state then 1 else 0
      | none => 0 := by
    rw [← registrationState_eq h hlen]
    unfold requestRegistrationState
    simp only [hcops, hact, Option.bind_some, hcmd, hask]
    cases registrationState line <;> rfl
  have hone : ∀ state : ℤ, ((if Registered state then (1 : UInt8) else 0) = 1) ↔
      Registered state := by
    intro state
    split
    · next hstate => exact iff_of_true rfl hstate
    · next hstate => exact iff_of_false (by decide) hstate
  have hint : ((if Registered (intOf stat) then (1 : UInt8) else 0) = 1 ↔ Registered stat) ↔
      (Registered (intOf stat) → Registered stat) := by
    rw [hone]
    exact ⟨fun hiff => hiff.1, fun himp => ⟨himp, Registered.intOf⟩⟩
  rw [hresult]
  cases form with
  | stat =>
      have hzero : ¬ (0 : UInt8) = 1 := by decide
      exact ⟨fun hiff hstat => hzero (hiff.2 hstat), fun hstat => iff_of_false hzero hstat⟩
  | nStat => exact hint
  | statLacCid lac =>
      show ((if Registered (hexOf lac) then (1 : UInt8) else 0) = 1 ↔ _) ↔ _
      rw [hone]
      rfl
  | nStatLacCid => exact hint
  | nStatLacCidAct => exact hint

/-- `+COPS: 0,2,"46000",7`: the modem is in an LTE network. -/
def lteCops : AtAnswer := oneLine "+COPS: 0,2,\"46000\",7".toList

/-- The modem roams. -/
theorem requestRegistrationState_roaming :
    (requestRegistrationState lteCops fun _ => oneLine "+CEREG: 2,5".toList).2 = 1 :=
  ((@requestRegistrationState_iff lteCops (fun _ => oneLine "+CEREG: 2,5".toList) _ 7 .cereg 5
    .nStat _ [] rfl (by decide +kernel) rfl rfl
    ⟨[natItem true 2, natItem false 5], [], .nStat 2, ends_nil, rfl, rfl⟩
    (by decide +kernel)).2 fun _ => .inr rfl).2 (.inr rfl)

/-- The modem is at home, and says no more than that. -/
theorem requestRegistrationState_bare : ¬ ∀ (cops : AtAnswer) (ask : RegCommand → AtAnswer)
    (copsLines : List (List Char)) (act : ℤ) (cmd : RegCommand) (stat : ℤ) (form : RegForm)
    (line : List Char), cops.lines = some copsLines → copsAct copsLines = some act →
      regCommand act = some cmd → (ask cmd).lines = some [line] → RegLine cmd stat form line →
        line.length < sLineSize →
          ((requestRegistrationState cops ask).2 = 1 ↔ Registered stat) := by
  intro hall
  have hiff := hall lteCops (fun _ => oneLine "+CEREG: 1".toList) _ 7 .cereg 1 .stat _ rfl
    (by decide +kernel) rfl rfl ⟨[natItem true 1], [], .stat, ends_nil, rfl, rfl⟩
    (by decide +kernel)
  exact absurd (hiff.2 (.inl rfl)) (by decide +kernel)

end Atc

/-
**Whether the data call is connected.**

`requestQueryDataCall` of `atc.c` asks an ASR modem which contexts are bound, and which are active.
It reads each line into the variables that decide, also when the line is about another context.

* `Atc.ctlLine`, `Atc.cgactLoop`, `Atc.requestQueryDataCall` — the two loops, and the function;
* `Atc.Ctl`, `Atc.Act`, `Atc.Says` — what the lines of the modem say;
* `Atc.OthersDoNotMatter` — two responses that agree on a context give the same status, and the
  right one;
* `Atc.Decided` — the last line decides as the one about the context does;
* `Atc.othersDoNotMatter_iff` — **the others do not matter exactly for responses that are decided**;
* `Atc.not_othersDoNotMatter` — a second context behind the one that is connected.
-/
import OpenwrtPackage.Atc.Address
import OpenwrtPackage.Atc.Fields
import OpenwrtPackage.QuectelCM.Requests

set_option relaxedAutoImplicit false
set_option autoImplicit false

namespace Atc

open QuectelCM

/-! ### `atc.c` -/

/-- The variables of `requestQueryDataCall`. -/
structure CallVars where
  bind : ℤ
  cid : ℤ
  state : ℤ
  deriving DecidableEq

/-- The loop over `+QNETDEVCTL:<op>,<cid>,<urc_en>,<state>`. -/
def ctlLine (pdp : ℤ) (v : CallVars) (line : List Char) : CallVars :=
  let r := atTokScanf line [.d, .d, .d, .d]
  let v : CallVars := ⟨intOut r 0 v.bind, intOut r 1 v.cid, intOut r 3 v.state⟩
  if r.1 ≠ 4 ∨ v.cid ≠ pdp then v
  else if v.bind ≠ 1 then { v with bind := 0 }
  else v

/-- The loop over `+CGACT:<cid>,<state>`: `state` behind it. -/
def cgactLoop (pdp : ℤ) : ℤ → ℤ → List (List Char) → ℤ
  | _, state, [] => state
  | cid, _, line :: lines =>
      let r := atTokScanf line [.d, .d]
      let cid := intOut r 0 cid
      let state := intOut r 1 0
      if cid = pdp then state else cgactLoop pdp cid 0 lines

/-- `requestQueryDataCall`: the result and `*pConnectionStatus`, with the answers to
`AT+QNETDEVSTATUS`, `AT+QNETDEVCTL?` and `AT+CGACT?`; `cid` is what the variable holds at first. -/
def requestQueryDataCall (asrStyleAtc : Bool) (sPdp cid : ℤ)
    (qnetdevstatus qnetdevctl cgact : AtAnswer) : ℤ × UInt8 :=
  if ¬ asrStyleAtc then
    (0, if atNetdevstatus qnetdevstatus ≠ 0 then qwdsPktDataConnected else qwdsPktDataDisconnected)
  else
    match qnetdevctl.lines with
    | none => (0, qwdsPktDataDisconnected)
    | some ctlLines =>
        let v := ctlLines.foldl (ctlLine sPdp) ⟨0, cid, 0⟩
        if v.bind = 0 ∨ v.state = 0 then (0, qwdsPktDataDisconnected)
        else
          match cgact.lines with
          | none => (0, qwdsPktDataDisconnected)
          | some actLines =>
              if cgactLoop sPdp v.cid v.state actLines ≠ 0 then (0, qwdsPktDataConnected)
              else (0, qwdsPktDataDisconnected)

/-! ### What the modem says -/

/-- A line of `+QNETDEVCTL`. -/
structure Ctl where
  op : ℤ
  cid : ℤ
  urcEn : ℤ
  state : ℤ
  deriving DecidableEq

/-- A line of `+CGACT`. -/
structure Act where
  cid : ℤ
  state : ℤ
  deriving DecidableEq

/-- A line with these numbers, each of them an `int`; more fields may follow. -/
def Says (front : List Char) (ns : List ℤ) (line : List Char) : Prop :=
  ∃ items rest, items.map Item.field = ns.map AtField.int ∧
    (∀ n ∈ ns, -2 ^ 31 ≤ n ∧ n < 2 ^ 31) ∧ Ends rest ∧ line.length < sLineSize ∧
    line = front ++ ':' :: (joined items ++ rest)

def Ctl.Line (c : Ctl) (line : List Char) : Prop :=
  Says "+QNETDEVCTL".toList [c.op, c.cid, c.urcEn, c.state] line

def Act.Line (a : Act) (line : List Char) : Prop := Says "+CGACT".toList [a.cid, a.state] line

/-- The two responses of a modem: their lines say these things. -/
structure Responses (ctls : List Ctl) (acts : List Act) (qnetdevctl cgact : AtAnswer) : Prop where
  ctl : ∃ lines, qnetdevctl.lines = some lines ∧ List.Forall₂ Ctl.Line ctls lines
  act : ∃ lines, cgact.lines = some lines ∧ List.Forall₂ Act.Line acts lines

/-- Bound and active. -/
def Ctl.Up (c : Ctl) : Prop := c.op = 1 ∧ c.state ≠ 0

/-- The line about this context says that it is bound and active. -/
def BoundUp (pdp : ℤ) (ctls : List Ctl) : Prop :=
  ∃ c, ctls.find? (fun c => c.cid = pdp) = some c ∧ c.Up

/-- The line about this context says that it is active. -/
def Active (pdp : ℤ) (acts : List Act) : Prop :=
  ∃ a, acts.find? (fun a => a.cid = pdp) = some a ∧ a.state ≠ 0

/-- Two pairs of responses that say the same about the context `pdp` give the same status, and
that is connected exactly when both lines about the context say so. -/
def OthersDoNotMatter (pdp cid cid' : ℤ) (qnetdevstatus : AtAnswer) (ctls : List Ctl)
    (acts : List Act) (a a' : AtAnswer × AtAnswer) : Prop :=
  (requestQueryDataCall true pdp cid qnetdevstatus a.1 a.2).2 =
      (requestQueryDataCall true pdp cid' qnetdevstatus a'.1 a'.2).2 ∧
    ((requestQueryDataCall true pdp cid qnetdevstatus a.1 a.2).2 = qwdsPktDataConnected ↔
      BoundUp pdp ctls ∧ Active pdp acts)

/-- The last line, whatever context it is about, says that something is bound and active. -/
def LastUp (pdp : ℤ) (ctls : List Ctl) : Prop :=
  ∃ c, ctls.getLast? = some c ∧ (if c.cid = pdp then c.op = 1 else c.op ≠ 0) ∧ c.state ≠ 0

/-- The last line of `+QNETDEVCTL` says the same as the one about the context, unless that is not
active anyway; and without a line of `+CGACT` the last line does not say that something is bound
and active. -/
def Decided (pdp : ℤ) (ctls : List Ctl) (acts : List Act) : Prop :=
  if acts = [] then ¬ LastUp pdp ctls
  else Active pdp acts → (LastUp pdp ctls ↔ BoundUp pdp ctls)

/-! ### Reading the lines -/

/-- The numbers of a line are read. -/
theorem atTokScanf_of_says {front : List Char} (hfront : ':' ∉ front) {ns : List ℤ}
    (hne : ns ≠ []) {line : List Char} (h : Says front ns line) :
    atTokScanf line (ns.map fun _ => .d) = (ns.length, ns.map fun n => some (.int n)) := by
  obtain ⟨items, rest, hfields, hrange, hrest, hlen, rfl⟩ := h
  have hvalue : ∀ f ∈ ns.map AtField.int, f ≠ .placeholder := by
    intro f hf
    obtain ⟨n, -, rfl⟩ := List.mem_map.1 hf
    simp
  have hscan := atTokScanf_fields hfront hfields (by simpa using hne) hvalue hrest hlen
  have hfmt : (ns.map AtField.int).map AtField.conv = ns.map fun _ => .d := by
    rw [List.map_map]
    rfl
  have houts : (ns.map AtField.int).map AtField.value = ns.map fun n => some (.int n) := by
    rw [List.map_map]
    refine List.map_congr_left fun n hn => ?_
    obtain ⟨hlo, hhi⟩ := hrange n hn
    show some (AtVal.int (intOf n)) = _
    rw [intOf_eq hlo hhi]
  rw [hfmt, houts, List.length_map] at hscan
  exact hscan

section

variable {pdp : ℤ} {ctls : List Ctl} {acts : List Act} {lines : List (List Char)}

/-- What a line leaves in the variables, whatever they held before. -/
def Ctl.vars (pdp : ℤ) (c : Ctl) : CallVars :=
  ⟨if c.cid = pdp ∧ c.op ≠ 1 then 0 else c.op, c.cid, c.state⟩

theorem ctlLine_eq {c : Ctl} {line : List Char} (h : c.Line line) (v : CallVars) :
    ctlLine pdp v line = c.vars pdp := by
  have hscan := atTokScanf_of_says (by decide) (List.cons_ne_nil _ _) h
  simp only [List.map_cons, List.map_nil, List.length_cons, List.length_nil] at hscan
  unfold ctlLine Ctl.vars
  rw [hscan]
  by_cases hcid : c.cid = pdp
  · by_cases hop : c.op = 1
    · simp [intOut, hcid, hop]
    · simp [intOut, hcid, hop]
  · simp [intOut, hcid]

/-- Behind the loop the variables hold what the last line said. -/
theorem foldl_ctlLine (h : List.Forall₂ Ctl.Line ctls lines) (v : CallVars) :
    lines.foldl (ctlLine pdp) v =
      match ctls.getLast? with
      | some c => c.vars pdp
      | none => v := by
  induction h generalizing v with
  | nil => rfl
  | @cons c line cs ls hline hrest ih =>
      rw [List.foldl_cons, ih, ctlLine_eq hline, List.getLast?_cons]
      cases cs.getLast? <;> rfl

/-- The loop over `+CGACT` ends at the line about the context. -/
theorem cgactLoop_eq (h : List.Forall₂ Act.Line acts lines) (cid state : ℤ) :
    cgactLoop pdp cid state lines =
      if acts = [] then state
      else ((acts.find? fun a => a.cid = pdp).map Act.state).getD 0 := by
  induction h generalizing cid state with
  | nil => rfl
  | @cons a line as ls hline hrest ih =>
      have hscan := atTokScanf_of_says (by decide) (List.cons_ne_nil _ _) hline
      simp only [List.map_cons, List.map_nil, List.length_cons, List.length_nil] at hscan
      rw [if_neg (List.cons_ne_nil _ _), cgactLoop, hscan]
      by_cases hcid : a.cid = pdp
      · simp [intOut, hcid]
      · simp only [intOut, List.getD_cons_zero, hcid, if_false, ih]
        rw [List.find?_cons_of_neg (by simpa using hcid)]
        split
        · next hnil =>
            subst hnil
            rfl
        · rfl

/-- The status is connected when the last line of the one response says so, and the other has no
line or an active one about the context. -/
theorem connected_iff {qnetdevctl cgact : AtAnswer} (h : Responses ctls acts qnetdevctl cgact)
    (cid : ℤ) (qnetdevstatus : AtAnswer) :
    (requestQueryDataCall true pdp cid qnetdevstatus qnetdevctl cgact).2 = qwdsPktDataConnected ↔
      LastUp pdp ctls ∧ (acts = [] ∨ Active pdp acts) := by
  obtain ⟨⟨ctlLines, hctlLines, hctls⟩, ⟨actLines, hactLines, hacts⟩⟩ := h
  have hne : ¬ qwdsPktDataDisconnected = qwdsPktDataConnected := by decide
  unfold requestQueryDataCall
  rw [if_neg (by decide)]
  simp only [hctlLines, hactLines, foldl_ctlLine hctls]
  cases hlast : ctls.getLast? with
  | none =>
      have hdown : ¬ LastUp pdp ctls := by
        rintro ⟨c, hc, -⟩
        rw [hlast] at hc
        cases hc
      dsimp only
      rw [if_pos (.inl rfl)]
      exact iff_of_false hne fun hup => hdown hup.1
  | some c =>
      have hup : LastUp pdp ctls ↔ ¬ ((c.vars pdp).bind = 0 ∨ (c.vars pdp).state = 0) := by
        have hlastUp : LastUp pdp ctls ↔
            (if c.cid = pdp then c.op = 1 else c.op ≠ 0) ∧ c.state ≠ 0 := by
          constructor
          · rintro ⟨d, hd, hupd⟩
            rw [hlast] at hd
            cases hd
            exact hupd
          · exact fun hupc => ⟨c, hlast, hupc⟩
        rw [hlastUp, not_or]
        refine and_congr ?_ Iff.rfl
        unfold Ctl.vars
        dsimp only
        by_cases hcid : c.cid = pdp
        · by_cases hop : c.op = 1
          · simp [hcid, hop]
          · simp [hcid, hop]
        · simp [hcid]
      by_cases hdown : (c.vars pdp).bind = 0 ∨ (c.vars pdp).state = 0
      · dsimp only
        rw [if_pos hdown]
        exact iff_of_false hne fun hc => hup.1 hc.1 hdown
      · have hstate : (c.vars pdp).state ≠ 0 := fun hs => hdown (.inr hs)
        have hact : cgactLoop pdp (c.vars pdp).cid (c.vars pdp).state actLines ≠ 0 ↔
            acts = [] ∨ Active pdp acts := by
          rw [cgactLoop_eq hacts]
          by_cases hnil : acts = []
          · rw [if_pos hnil]
            exact iff_of_true hstate (.inl hnil)
          · rw [if_neg hnil, Active]
            cases acts.find? fun a => decide (a.cid = pdp) with
            | none => simp [hnil]
            | some a => simp [hnil]
        dsimp only
        rw [if_neg hdown, and_iff_right (hup.2 hdown), ← hact]
        split
        · next hc => exact iff_of_true rfl hc
        · next hc => exact iff_of_false hne hc

/-- The status is right exactly for responses that are decided. -/
theorem right_iff_decided {qnetdevctl cgact : AtAnswer}
    (h : Responses ctls acts qnetdevctl cgact) (cid : ℤ) (qnetdevstatus : AtAnswer) :
    ((requestQueryDataCall true pdp cid qnetdevstatus qnetdevctl cgact).2 =
        qwdsPktDataConnected ↔ BoundUp pdp ctls ∧ Active pdp acts) ↔ Decided pdp ctls acts := by
  rw [connected_iff h, Decided]
  by_cases hnil : acts = []
  · have hinactive : ¬ Active pdp acts := by
      rintro ⟨a, ha, -⟩
      rw [hnil] at ha
      cases ha
    rw [if_pos hnil, and_iff_left (Or.inl hnil)]
    exact ⟨fun hiff hup => hinactive (hiff.1 hup).2,
      fun hdown => iff_of_false hdown fun hc => hinactive hc.2⟩
  · rw [if_neg hnil]
    by_cases hactive : Active pdp acts
    · simp [hnil, hactive]
    · simp [hnil, hactive]

/-- The status is one of two. -/
theorem status_eq (pdp cid : ℤ) (a b c : AtAnswer) :
    (requestQueryDataCall true pdp cid a b c).2 = qwdsPktDataConnected ∨
      (requestQueryDataCall true pdp cid a b c).2 = qwdsPktDataDisconnected := by
  unfold requestQueryDataCall
  rw [if_neg (by decide)]
  cases b.lines with
  | none => exact .inr rfl
  | some ctlLines =>
      dsimp only
      split
      · exact .inr rfl
      · cases c.lines with
        | none => exact .inr rfl
        | some actLines =>
            dsimp only
            split
            · exact .inl rfl
            · exact .inr rfl

/-- **Other contexts do not matter exactly for responses that are decided.** -/
theorem othersDoNotMatter_iff {ctls' : List Ctl} {acts' : List Act} {a a' : AtAnswer × AtAnswer}
    (h : Responses ctls acts a.1 a.2) (h' : Responses ctls' acts' a'.1 a'.2)
    (hctl : ctls.filter (fun c => c.cid = pdp) = ctls'.filter fun c => c.cid = pdp)
    (hact : acts.filter (fun a => a.cid = pdp) = acts'.filter fun a => a.cid = pdp)
    (cid cid' : ℤ) (qnetdevstatus : AtAnswer) :
    OthersDoNotMatter pdp cid cid' qnetdevstatus ctls acts a a' ↔
      Decided pdp ctls acts ∧ Decided pdp ctls' acts' := by
  have hbound : BoundUp pdp ctls ↔ BoundUp pdp ctls' := by
    unfold BoundUp
    rw [← List.head?_filter, ← List.head?_filter, hctl]
  have hactive : Active pdp acts ↔ Active pdp acts' := by
    unfold Active
    rw [← List.head?_filter, ← List.head?_filter, hact]
  have hright := @right_iff_decided pdp _ _ _ _ h cid qnetdevstatus
  have hright' := @right_iff_decided pdp _ _ _ _ h' cid' qnetdevstatus
  rw [OthersDoNotMatter, ← hright, ← hright', ← hbound, ← hactive]
  constructor
  · rintro ⟨hsame, hfirst⟩
    refine ⟨hfirst, ?_⟩
    rw [← hsame]
    exact hfirst
  · rintro ⟨hfirst, hsecond⟩
    refine ⟨?_, hfirst⟩
    rcases status_eq pdp cid qnetdevstatus a.1 a.2 with hc | hd
    · rw [hc, hsecond.2 (hfirst.1 hc)]
    · rcases status_eq pdp cid' qnetdevstatus a'.1 a'.2 with hc' | hd'
      · rw [hfirst.2 (hsecond.1 hc'), hc']
      · rw [hd, hd']

end

/-! ### Two contexts -/

/-- A line with these numbers. -/
def natLine (front : List Char) (ns : List ℕ) : List Char :=
  front ++ ':' :: (joined (ns.map (natItem false)) ++ [])

theorem says_natLine {front : List Char} {ns : List ℕ} (h : ∀ n ∈ ns, n < 2 ^ 31)
    (hlen : (natLine front ns).length < sLineSize) :
    Says front (ns.map Int.ofNat) (natLine front ns) := by
  refine ⟨ns.map (natItem false), [], ?_, ?_, ends_nil, hlen, rfl⟩
  · rw [List.map_map, List.map_map]
    rfl
  · intro n hn
    obtain ⟨m, hm, rfl⟩ := List.mem_map.1 hn
    have hlt := h m hm
    show -2 ^ 31 ≤ (m : ℤ) ∧ (m : ℤ) < 2 ^ 31
    omega

/-- An `OK` behind these lines. -/
def okLines (lines : List (List Char)) : AtAnswer := ⟨0, some ⟨1, some "OK".toList, lines⟩⟩

/-- Context 1 is bound and active. -/
def firstCtl : List Char := natLine "+QNETDEVCTL".toList [1, 1, 1, 1]

/-- Context 2 is not. -/
def secondCtl : List Char := natLine "+QNETDEVCTL".toList [0, 2, 0, 0]

/-- Context 1 is active. -/
def firstAct : List Char := natLine "+CGACT".toList [1, 1]

theorem firstCtl_line : (⟨1, 1, 1, 1⟩ : Ctl).Line firstCtl :=
  @says_natLine _ [1, 1, 1, 1] (by decide) (by decide +kernel)

theorem secondCtl_line : (⟨0, 2, 0, 0⟩ : Ctl).Line secondCtl :=
  @says_natLine _ [0, 2, 0, 0] (by decide) (by decide +kernel)

theorem firstAct_line : (⟨1, 1⟩ : Act).Line firstAct :=
  @says_natLine _ [1, 1] (by decide) (by decide +kernel)

theorem responses_first : Responses [⟨1, 1, 1, 1⟩] [⟨1, 1⟩] (okLines [firstCtl])
    (okLines [firstAct]) where
  ctl := ⟨_, rfl, .cons firstCtl_line .nil⟩
  act := ⟨_, rfl, .cons firstAct_line .nil⟩

theorem responses_before : Responses [⟨0, 2, 0, 0⟩, ⟨1, 1, 1, 1⟩] [⟨1, 1⟩]
    (okLines [secondCtl, firstCtl]) (okLines [firstAct]) where
  ctl := ⟨_, rfl, .cons secondCtl_line (.cons firstCtl_line .nil)⟩
  act := ⟨_, rfl, .cons firstAct_line .nil⟩

theorem responses_behind : Responses [⟨1, 1, 1, 1⟩, ⟨0, 2, 0, 0⟩] [⟨1, 1⟩]
    (okLines [firstCtl, secondCtl]) (okLines [firstAct]) where
  ctl := ⟨_, rfl, .cons firstCtl_line (.cons secondCtl_line .nil)⟩
  act := ⟨_, rfl, .cons firstAct_line .nil⟩

/-- A last line about the context itself. -/
theorem decided_of_last {pdp : ℤ} {ctls : List Ctl} {acts : List Act} {c : Ctl}
    (hacts : acts ≠ []) (hlast : ctls.getLast? = some c) (hcid : c.cid = pdp)
    (hfind : ctls.find? (fun c => c.cid = pdp) = some c) : Decided pdp ctls acts := by
  rw [Decided, if_neg hacts]
  intro _
  constructor
  · rintro ⟨d, hd, hop, hstate⟩
    rw [hlast] at hd
    cases hd
    rw [if_pos hcid] at hop
    exact ⟨c, hfind, hop, hstate⟩
  · rintro ⟨d, hd, hop, hstate⟩
    rw [hfind] at hd
    cases hd
    refine ⟨c, hlast, ?_, hstate⟩
    rw [if_pos hcid]
    exact hop

/-- A second context in front of the one that is connected. -/
theorem othersDoNotMatter_before : OthersDoNotMatter 1 0 0 (okLines []) [⟨1, 1, 1, 1⟩] [⟨1, 1⟩]
    (okLines [firstCtl], okLines [firstAct]) (okLines [secondCtl, firstCtl], okLines [firstAct]) :=
  (@othersDoNotMatter_iff 1 _ _ _ _ (okLines [firstCtl], okLines [firstAct])
    (okLines [secondCtl, firstCtl], okLines [firstAct]) responses_first responses_before
    (by decide) (by decide) 0 0 (okLines [])).2
    ⟨decided_of_last (List.cons_ne_nil _ _) rfl rfl (by decide),
      decided_of_last (List.cons_ne_nil _ _) rfl rfl (by decide)⟩

/-- A second context behind the one that is connected. -/
theorem not_othersDoNotMatter : ¬ ∀ (pdp cid cid' : ℤ) (qnetdevstatus : AtAnswer)
    (ctls ctls' : List Ctl) (acts acts' : List Act) (a a' : AtAnswer × AtAnswer),
    Responses ctls acts a.1 a.2 → Responses ctls' acts' a'.1 a'.2 →
      ctls.filter (fun c => c.cid = pdp) = ctls'.filter (fun c => c.cid = pdp) →
        acts.filter (fun a => a.cid = pdp) = acts'.filter (fun a => a.cid = pdp) →
          OthersDoNotMatter pdp cid cid' qnetdevstatus ctls acts a a' := by
  intro hall
  have hsame := hall 1 0 0 (okLines []) _ _ _ _ (okLines [firstCtl], okLines [firstAct])
    (okLines [firstCtl, secondCtl], okLines [firstAct]) responses_first responses_behind
    (by decide) (by decide)
  exact absurd hsame.1 (by decide +kernel)

end Atc

/-
**The AT channel.**

One thread sends commands to the modem and waits; another one reads lines, which are the answer to
the command that is waited for, or come from the modem by itself.  AT lines carry no number, so a
line is put to one or the other by its first characters, by the kind of the command and by what has
come before it.  The two threads run in any order: a line can come between the last line of an
answer and the moment in which the waiting thread looks.

* `Atc.Channel`, `Atc.processLine`, `Atc.Event`, `Atc.step` — the state of the channel, what the
  reader does with a line, and what happens;
* `Atc.Command.intermediates`, `Atc.Command.others`, `Atc.lastFinal`, `Atc.Session` — what a
  command gets of all that has come since it was sent, and what is left for the handler;
* `Atc.processArrived_toChannel` — one line;
* `Atc.run_refines` — **in every run the commands get, and the handler is told, what all that has
  come since the command was sent says**;
* `Atc.run_conserves` — **no line is lost, and none is given to two**.
-/
import OpenwrtPackage.Lib.EventRun
import Mathlib.Data.List.Basic

set_option relaxedAutoImplicit false
set_option autoImplicit false

namespace Atc

/-! ### Lines -/

/-- A string constant, byte by byte. -/
def ascii (s : List Char) : List UInt8 := s.map fun c => UInt8.ofNat c.toNat

/-- `strStartsWith`. -/
def strStartsWith : List UInt8 → List UInt8 → Bool
  | _, [] => true
  | [], _ :: _ => false
  | c :: line, d :: pre => c == d && strStartsWith line pre

def finalResponsesError : List (List UInt8) :=
  ["ERROR", "+CMS ERROR:", "+CME ERROR:", "NO CARRIER", "NO ANSWER", "NO DIALTONE",
    "COMMAND NOT SUPPORT"].map fun s => ascii s.toList

def finalResponsesSuccess : List (List UInt8) :=
  ["OK", "+QIND: \"FOTA\",\"END\",0", "CONNECT"].map fun s => ascii s.toList

def smsUnsoliciteds : List (List UInt8) :=
  ["+CMT:", "+CDS:", "+CBM:", "+CMTI:"].map fun s => ascii s.toList

def isFinalResponseError (line : List UInt8) : Bool := finalResponsesError.any (strStartsWith line)

def isFinalResponseSuccess (line : List UInt8) : Bool :=
  finalResponsesSuccess.any (strStartsWith line)

def isSMSUnsolicited (line : List UInt8) : Bool := smsUnsoliciteds.any (strStartsWith line)

/-- `isdigit(line[0])`. -/
def startsWithDigit (line : List UInt8) : Bool :=
  match line with
  | [] => false
  | c :: _ => 0x30 ≤ c && c ≤ 0x39

/-- What `readerLoop` makes of the lines that it reads: one line, or the two of a message. -/
inductive Arrived where
  | line (text : List UInt8)
  | message (line1 line2 : List UInt8)
  deriving DecidableEq

def readerLoop : List (List UInt8) → List Arrived
  | [] => []
  | [line] => if isSMSUnsolicited line then [] else [.line line]
  | line :: line2 :: rest =>
      if isSMSUnsolicited line then .message line line2 :: readerLoop rest
      else .line line :: readerLoop (line2 :: rest)

def Arrived.texts : Arrived → List (List UInt8)
  | .line text => [text]
  | .message line1 line2 => [line1, line2]

/-- All lines are passed on in their order, but for the first line of a message whose second one
does not come. -/
theorem readerLoop_texts (lines : List (List UInt8)) :
    (readerLoop lines).flatMap Arrived.texts = lines ∨
      ∃ line, isSMSUnsolicited line = true ∧
        (readerLoop lines).flatMap Arrived.texts ++ [line] = lines := by
  induction lines using readerLoop.induct with
  | case1 => exact Or.inl rfl
  | case2 line h =>
      rw [readerLoop, if_pos h]
      exact Or.inr ⟨line, h, rfl⟩
  | case3 line h =>
      rw [readerLoop, if_neg h]
      exact Or.inl rfl
  | case4 line line2 rest h ih =>
      rw [readerLoop, if_pos h, List.flatMap_cons]
      rcases ih with ih | ⟨last, hlast, ih⟩
      · exact Or.inl (congrArg ([line, line2] ++ ·) ih)
      · refine Or.inr ⟨last, hlast, ?_⟩
        rw [List.append_assoc, ih]
        rfl
  | case5 line line2 rest h ih =>
      rw [readerLoop, if_neg h, List.flatMap_cons]
      rcases ih with ih | ⟨last, hlast, ih⟩
      · exact Or.inl (congrArg ([line] ++ ·) ih)
      · refine Or.inr ⟨last, hlast, ?_⟩
        rw [List.append_assoc, ih]
        rfl

/-! ### The channel -/

/-- `ATCommandType`. -/
inductive CommandType where
  | noResult
  | numeric
  | singleline
  | multiline
  deriving DecidableEq

/-- The arguments of `at_send_command_full`: where the type needs no prefix, it is NULL, and here
empty. -/
structure Command where
  command : List UInt8
  type : CommandType
  responsePrefix : List UInt8
  smspdu : Option (List UInt8)

/-- `s_type`, `s_responsePrefix`, `s_smsPDU` and `sp_response`, whose intermediate responses are in
reverse order. -/
structure Pending where
  command : Command
  smsPDU : Option (List UInt8)
  intermediates : List (List UInt8)
  finalResponse : Option (List UInt8)
  success : Bool

/-- What `at_send_command_full` returns: 0 and the response, or one of its errors; with
`AT_ERROR_CHANNEL_CLOSED` there can be a response too. -/
inductive Result where
  | response (success : Bool) (intermediates : List (List UInt8)) (finalResponse : List UInt8)
  | generic
  | timeout
  | closed (response : Option (Bool × List (List UInt8) × Option (List UInt8)))
  deriving DecidableEq

/-- The state of the channel, what has come in, and what has come of it: the calls of
`s_unsolHandler`, what the reader has written, and the results of commands. -/
structure Channel where
  pending : Option Pending
  rawData : Option (List UInt8)
  readerClosed : Bool
  atcProxy : Bool
  arrived : List Arrived
  unsolicited : List (List UInt8 × Option (List UInt8))
  written : List (List UInt8)
  results : List Result

/-- `at_open`. -/
def Channel.open (proxy : Bool) : Channel := ⟨none, none, false, proxy, [], [], [], []⟩

/-- `writeraw` and `writeCtrlZ`, as the reader calls them. -/
def Channel.write (c : Channel) (bytes : List UInt8) : Channel :=
  if c.readerClosed then c else { c with written := c.written ++ [bytes] }

def handleUnsolicited (c : Channel) (line : List UInt8) : Channel :=
  { c with unsolicited := c.unsolicited ++ [(line, none)] }

/-- `handleFinalResponse`, with what is done in front of it. -/
def handleFinalResponse (c : Channel) (p : Pending) (success : Bool) (line : List UInt8) :
    Channel :=
  let c := if c.atcProxy then handleUnsolicited c line else c
  { c with pending := some { p with success := success, finalResponse := some line } }

def addIntermediate (c : Channel) (p : Pending) (line : List UInt8) : Channel :=
  { c with pending := some { p with intermediates := line :: p.intermediates } }

/-- `processLine`. -/
def processLine (c : Channel) (line : List UInt8) : Channel :=
  match c.pending with
  | none => handleUnsolicited c line
  | some p =>
      if c.rawData.isSome ∧ line = ascii "CONNECT".toList then
        { c.write (c.rawData.getD []) with rawData := none }
      else if isFinalResponseSuccess line then handleFinalResponse c p true line
      else if isFinalResponseError line then handleFinalResponse c p false line
      else if p.smsPDU.isSome ∧ line = ascii "> ".toList then
        { c.write (p.smsPDU.getD [] ++ [0x1A]) with pending := some { p with smsPDU := none } }
      else
        match p.command.type with
        | .noResult => handleUnsolicited c line
        | .numeric =>
            if p.intermediates = [] ∧ startsWithDigit line then addIntermediate c p line
            else handleUnsolicited c line
        | .singleline =>
            if p.intermediates = [] ∧ strStartsWith line p.command.responsePrefix then
              addIntermediate c p line
            else handleUnsolicited c line
        | .multiline =>
            if strStartsWith line p.command.responsePrefix then addIntermediate c p line
            else handleUnsolicited c line

/-- What the reader does with what has arrived. -/
def processArrived (c : Channel) (a : Arrived) : Channel :=
  let c := { c with arrived := c.arrived ++ [a] }
  match a with
  | .line text => processLine c text
  | .message line1 line2 => { c with unsolicited := c.unsolicited ++ [(line1, some line2)] }

/-- What can happen.  One thread sends commands, and each of them when the last one has returned.
`written` says if `writeline` succeeds. -/
inductive Event where
  | arrive (a : Arrived)
  | send (command : Command) (written : Bool)
  | sendRaw (command : Command) (rawData : List UInt8) (written : Bool)
  | wake
  | timeout
  | close

/-- The front of `at_send_command_full_nolock`, up to the wait; on a closed channel `writeline`
fails. -/
def startCommand (c : Channel) (command : Command) (written : Bool) : Channel :=
  if c.readerClosed then { c with results := c.results ++ [.closed none] }
  else if written then { c with pending := some ⟨command, command.smspdu, [], none, false⟩ }
  else { c with results := c.results ++ [.generic] }

/-- The waiting thread looks at the response, when it has been signalled or for no reason. -/
def wake (c : Channel) (p : Pending) : Channel :=
  if c.readerClosed then
    { c with
      pending := none
      results := c.results ++
        [.closed (some (p.success, p.intermediates.reverse, p.finalResponse))] }
  else
    match p.finalResponse with
    | none => c
    | some line =>
        { c with
          pending := none
          results := c.results ++ [.response p.success p.intermediates.reverse line] }

/-- One event, if it can happen. -/
def step (c : Channel) : Event → Option Channel
  | .arrive a => some (processArrived c a)
  | .send command written =>
      if c.pending.isSome then none else some (startCommand c command written)
  | .sendRaw command rawData written =>
      if c.pending.isSome then none
      else some (startCommand { c with rawData := some rawData } command written)
  | .wake => c.pending.map (wake c)
  | .timeout =>
      c.pending.map fun _ => { c with pending := none, results := c.results ++ [.timeout] }
  | .close => some { c with readerClosed := true }

/-! ### What a command gets -/

/-- The lines that the kind of a command asks for. -/
def Command.takes (command : Command) (line : List UInt8) : Bool :=
  match command.type with
  | .noResult => false
  | .numeric => startsWithDigit line
  | .singleline => strStartsWith line command.responsePrefix
  | .multiline => strStartsWith line command.responsePrefix

/-- A line that ends an answer. -/
def Arrived.final : Arrived → Option (List UInt8)
  | .line text =>
      if isFinalResponseSuccess text || isFinalResponseError text then some text else none
  | .message _ _ => none

/-- A line that a command takes, when it does not end the answer. -/
def Command.body (command : Command) : Arrived → Option (List UInt8)
  | .line text =>
      if isFinalResponseSuccess text || isFinalResponseError text then none
      else if command.takes text then some text else none
  | .message _ _ => none

/-- The lines that a command gets of all that has come since it was sent: every one that it takes,
or the first one. -/
def Command.intermediates (command : Command) (as : List Arrived) : List (List UInt8) :=
  if command.type = .multiline then as.filterMap command.body
  else (as.filterMap command.body).take 1

/-- What is left. -/
def Command.others (command : Command) (as : List Arrived) : List Arrived :=
  if command.type = .multiline then as.filter fun a => (command.body a).isNone
  else as.eraseP fun a => (command.body a).isSome

/-- The last line that has come that ends an answer. -/
def lastFinal (as : List Arrived) : Option (List UInt8) := (as.filterMap Arrived.final).getLast?

def succeeded (as : List Arrived) : Bool := (lastFinal as).any isFinalResponseSuccess

/-- What the handler is called with. -/
def Arrived.call : Arrived → List UInt8 × Option (List UInt8)
  | .line text => (text, none)
  | .message line1 line2 => (line1, some line2)

/-- The handler is not told the lines that end an answer, unless it serves clients. -/
def told (proxy : Bool) (as : List Arrived) : List (List UInt8 × Option (List UInt8)) :=
  (as.filter fun a => proxy || a.final.isNone).map Arrived.call

/-- The channel as those that use it see it: the command that is waited for, with all that has come
since it was sent, what the handler was told before, and the results. -/
structure Session where
  current : Option (Command × List Arrived)
  arrived : List Arrived
  handled : List (List UInt8 × Option (List UInt8))
  results : List Result
  closed : Bool
  proxy : Bool

def Session.open (proxy : Bool) : Session := ⟨none, [], [], [], false, proxy⟩

/-- What the handler has been told. -/
def Session.told (s : Session) : List (List UInt8 × Option (List UInt8)) :=
  match s.current with
  | none => s.handled
  | some (command, as) => s.handled ++ Atc.told s.proxy (command.others as)

/-- The command that is waited for returns. -/
def Session.finish (s : Session) (r : Result) : Session :=
  { s with current := none, handled := s.told, results := s.results ++ [r] }

/-- What has come is put to the command that is waited for, or told. -/
def Session.put (s : Session) (a : Arrived) : Session :=
  match s.current with
  | none => { s with handled := s.handled ++ [a.call] }
  | some (command, as) => { s with current := some (command, as ++ [a]) }

def Session.arrive (s : Session) (a : Arrived) : Session :=
  { s with arrived := s.arrived ++ [a] }.put a

def Session.send (s : Session) (command : Command) (written : Bool) : Session :=
  if s.closed then { s with results := s.results ++ [.closed none] }
  else if written then { s with current := some (command, []) }
  else { s with results := s.results ++ [.generic] }

def Session.wake (s : Session) (command : Command) (as : List Arrived) : Session :=
  if s.closed then
    s.finish (.closed (some (succeeded as, command.intermediates as, lastFinal as)))
  else
    match lastFinal as with
    | none => s
    | some line => s.finish (.response (succeeded as) (command.intermediates as) line)

def Session.step (s : Session) : Event → Option Session
  | .arrive a => some (s.arrive a)
  | .send command written => if s.current.isSome then none else some (s.send command written)
  | .sendRaw _ _ _ => none
  | .wake => s.current.map fun p => s.wake p.1 p.2
  | .timeout => s.current.map fun _ => s.finish .timeout
  | .close => some { s with closed := true }

/-- The response, when this has come since the command was sent. -/
def Pending.of (command : Command) (as : List Arrived) : Pending :=
  ⟨command, none, (command.intermediates as).reverse, lastFinal as, succeeded as⟩

/-- The state that the channel is in. -/
def Session.toChannel (s : Session) : Channel :=
  ⟨s.current.map fun p => Pending.of p.1 p.2, none, s.closed, s.proxy, s.arrived, s.told, [],
    s.results⟩

/-! ### One line -/

section Concat

variable {command : Command} {as : List Arrived} {a : Arrived} {text : List UInt8}

theorem intermediates_eq_nil : command.intermediates as = [] ↔ as.filterMap command.body = [] := by
  rw [Command.intermediates]
  split
  · exact Iff.rfl
  · rw [List.take_eq_nil_iff]
    exact or_iff_right Nat.one_ne_zero

/-- A line that the command takes, if it is not to have one only and has it. -/
theorem intermediates_concat_body (ha : command.body a = some text)
    (hroom : command.type = .multiline ∨ command.intermediates as = []) :
    command.intermediates (as ++ [a]) = command.intermediates as ++ [text] := by
  rcases hroom with hmulti | hnil
  · simp only [Command.intermediates, if_pos hmulti, List.filterMap_append, List.filterMap_cons, ha,
      List.filterMap_nil]
  · have hbody := intermediates_eq_nil.1 hnil
    simp only [Command.intermediates, List.filterMap_append, hbody, List.filterMap_cons, ha,
      List.filterMap_nil, List.nil_append]
    split
    · rfl
    · rfl

theorem intermediates_concat_rest
    (h : command.body a = none ∨ ¬ (command.type = .multiline ∨ command.intermediates as = [])) :
    command.intermediates (as ++ [a]) = command.intermediates as := by
  rcases h with ha | hfull
  · simp only [Command.intermediates, List.filterMap_append, List.filterMap_cons, ha,
      List.filterMap_nil, List.append_nil]
  · obtain ⟨htype, hne⟩ := not_or.1 hfull
    have hbody := mt intermediates_eq_nil.2 hne
    simp only [Command.intermediates, if_neg htype, List.filterMap_append]
    exact List.take_append_of_le_length (List.length_pos_iff.2 hbody)

theorem any_body_eq_false (h : as.filterMap command.body = []) :
    as.any (fun a => (command.body a).isSome) = false := by
  rw [List.filterMap_eq_nil_iff] at h
  rw [List.any_eq_false]
  intro a ha
  rw [h a ha]
  exact Bool.false_ne_true

theorem others_concat_body (ha : command.body a = some text)
    (hroom : command.type = .multiline ∨ command.intermediates as = []) :
    command.others (as ++ [a]) = command.others as := by
  by_cases hmulti : command.type = .multiline
  · simp only [Command.others, if_pos hmulti, List.filter_append, List.filter_cons, ha,
      Option.isNone_some, Bool.false_eq_true, if_false, List.filter_nil, List.append_nil]
  · have hnil := any_body_eq_false (intermediates_eq_nil.1 (hroom.resolve_left hmulti))
    have hnot : ∀ b ∈ as, ¬ (command.body b).isSome = true := by
      simpa using hnil
    simp only [Command.others, if_neg hmulti]
    rw [List.eraseP_append_right _ hnot, List.eraseP_of_forall_not hnot,
      List.eraseP_cons_of_pos (by rw [ha]; rfl), List.append_nil]

theorem others_concat_rest
    (h : command.body a = none ∨ ¬ (command.type = .multiline ∨ command.intermediates as = [])) :
    command.others (as ++ [a]) = command.others as ++ [a] := by
  rcases h with ha | hfull
  · by_cases hmulti : command.type = .multiline
    · simp only [Command.others, if_pos hmulti, List.filter_append, List.filter_cons, ha,
        Option.isNone_none, if_true, List.filter_nil]
    · simp only [Command.others, if_neg hmulti, List.eraseP_append]
      have hone : [a].eraseP (fun a => (command.body a).isSome) = [a] :=
        List.eraseP_cons_of_neg (by rw [ha]; exact Bool.false_ne_true)
      rw [hone]
      split
      · rfl
      · next hany =>
          have hnone : ∀ b ∈ as, ¬ (command.body b).isSome = true := by simpa using hany
          rw [List.eraseP_of_forall_not hnone]
  · obtain ⟨htype, hne⟩ := not_or.1 hfull
    have hbody := mt intermediates_eq_nil.2 hne
    have hany : as.any (fun a => (command.body a).isSome) = true := by
      rw [List.any_eq_true]
      by_contra hnone
      refine hbody (List.filterMap_eq_nil_iff.2 fun b hb => ?_)
      cases hb' : command.body b with
      | none => rfl
      | some text => exact absurd ⟨b, hb, by rw [hb']; rfl⟩ hnone
    simp only [Command.others, if_neg htype, List.eraseP_append, hany, if_true]

theorem lastFinal_concat :
    lastFinal (as ++ [a]) = (a.final).or (lastFinal as) := by
  rw [lastFinal, List.filterMap_append]
  cases ha : a.final with
  | none => simp [ha, lastFinal]
  | some text => simp [ha]

theorem told_concat {proxy : Bool} :
    told proxy (as ++ [a]) =
      told proxy as ++ if proxy || a.final.isNone then [a.call] else [] := by
  rw [told, List.filter_append, List.map_append, ← told]
  split
  · next h =>
      rw [List.filter_cons, if_pos h]
      rfl
  · next h =>
      rw [List.filter_cons, if_neg h]
      rfl

end Concat

/-- A line that ends the answer. -/
theorem handleFinalResponse_toChannel {s : Session} {command : Command} {as : List Arrived}
    {text : List UInt8} (hs : s.current = some (command, as))
    (hfinal : (isFinalResponseSuccess text || isFinalResponseError text) = true) :
    handleFinalResponse s.toChannel (Pending.of command as) (isFinalResponseSuccess text) text =
      (s.put (.line text)).toChannel := by
  have hbody : command.body (.line text) = none := by rw [Command.body, if_pos hfinal]
  have hlast : lastFinal (as ++ [.line text]) = some text := by
    rw [lastFinal_concat, Arrived.final, if_pos hfinal]
    rfl
  simp only [handleFinalResponse, handleUnsolicited, Session.toChannel, Session.put, hs,
    Session.told, Pending.of, Option.map_some, intermediates_concat_rest (Or.inl hbody),
    others_concat_rest (Or.inl hbody), told_concat, hlast, succeeded, Option.any_some,
    Arrived.final, if_pos hfinal, Option.isNone_some, Bool.or_false, Arrived.call]
  cases s.proxy with
  | true => simp only [if_true, List.append_assoc]
  | false => simp only [Bool.false_eq_true, if_false, List.append_nil]

/-- A line that the command takes. -/
theorem addIntermediate_toChannel {s : Session} {command : Command} {as : List Arrived}
    {text : List UInt8} (hs : s.current = some (command, as))
    (hfinal : ¬ (isFinalResponseSuccess text || isFinalResponseError text) = true)
    (htakes : command.takes text = true)
    (hroom : command.type = .multiline ∨ command.intermediates as = []) :
    addIntermediate s.toChannel (Pending.of command as) text =
      (s.put (.line text)).toChannel := by
  have hbody : command.body (.line text) = some text := by
    rw [Command.body, if_neg hfinal, if_pos htakes]
  have hlast : lastFinal (as ++ [.line text]) = lastFinal as := by
    rw [lastFinal_concat, Arrived.final, if_neg hfinal]
    rfl
  simp only [addIntermediate, Session.toChannel, Session.put, hs, Session.told, Pending.of,
    Option.map_some, intermediates_concat_body hbody hroom, others_concat_body hbody hroom, hlast,
    succeeded, List.reverse_append, List.reverse_singleton, List.singleton_append]

/-- Any other line. -/
theorem handleUnsolicited_toChannel {s : Session} {command : Command} {as : List Arrived}
    {text : List UInt8} (hs : s.current = some (command, as))
    (hfinal : ¬ (isFinalResponseSuccess text || isFinalResponseError text) = true)
    (hrest : command.takes text = false ∨
      ¬ (command.type = .multiline ∨ command.intermediates as = [])) :
    handleUnsolicited s.toChannel text = (s.put (.line text)).toChannel := by
  have hbody : command.body (.line text) = none ∨
      ¬ (command.type = .multiline ∨ command.intermediates as = []) := by
    rcases hrest with htakes | hfull
    · left
      rw [Command.body, if_neg hfinal, htakes, if_neg Bool.false_ne_true]
    · exact Or.inr hfull
  have hnone : (Arrived.line text).final = none := by rw [Arrived.final, if_neg hfinal]
  have hlast : lastFinal (as ++ [.line text]) = lastFinal as := by
    rw [lastFinal_concat, hnone]
    rfl
  simp only [handleUnsolicited, Session.toChannel, Session.put, hs, Session.told, Pending.of,
    Option.map_some, intermediates_concat_rest hbody, others_concat_rest hbody, told_concat, hlast,
    succeeded, hnone, Option.isNone_none, Bool.or_true, if_true, Arrived.call, List.append_assoc]

/-- What `processLine` does with a line. -/
theorem processLine_toChannel (s : Session) (text : List UInt8) :
    processLine s.toChannel text = (s.put (.line text)).toChannel := by
  cases hs : s.current with
  | none =>
      simp only [processLine, handleUnsolicited, Session.toChannel, Session.put, hs, Session.told,
        Option.map_none, Arrived.call]
  | some p =>
      obtain ⟨command, as⟩ := p
      have hpending : s.toChannel.pending = some (Pending.of command as) := by
        rw [Session.toChannel, hs]
        rfl
      have hraw : ¬ (s.toChannel.rawData.isSome ∧ text = ascii "CONNECT".toList) :=
        fun h => Bool.false_ne_true h.1
      have hsms : ¬ ((Pending.of command as).smsPDU.isSome ∧ text = ascii "> ".toList) :=
        fun h => Bool.false_ne_true h.1
      have hnil : (Pending.of command as).intermediates = [] ↔ command.intermediates as = [] :=
        List.reverse_eq_nil_iff
      rw [processLine, hpending]
      simp only [if_neg hraw, if_neg hsms, hnil]
      by_cases hok : isFinalResponseSuccess text = true
      · have hfinal : (isFinalResponseSuccess text || isFinalResponseError text) = true := by
          rw [hok, Bool.true_or]
        have hstep := handleFinalResponse_toChannel hs hfinal
        rw [hok] at hstep
        rw [if_pos hok, hstep]
      by_cases herror : isFinalResponseError text = true
      · have hfinal : (isFinalResponseSuccess text || isFinalResponseError text) = true := by
          rw [herror, Bool.or_true]
        have hstep := handleFinalResponse_toChannel hs hfinal
        rw [Bool.eq_false_iff.2 hok] at hstep
        rw [if_neg hok, if_pos herror, hstep]
      have hfinal : ¬ (isFinalResponseSuccess text || isFinalResponseError text) = true := by
        rw [Bool.or_eq_true]
        exact fun h => h.elim hok herror
      have hbody := @addIntermediate_toChannel s command as text hs hfinal
      have hrest := @handleUnsolicited_toChannel s command as text hs hfinal
      have htype : (Pending.of command as).command.type = command.type := rfl
      have hprefix : (Pending.of command as).command.responsePrefix =
        command.responsePrefix := rfl
      rw [if_neg hok, if_neg herror, htype, hprefix]
      rw [Command.takes] at hbody hrest
      cases hkind : command.type with
      | noResult =>
          rw [hkind] at hrest
          exact hrest (Or.inl rfl)
      | numeric =>
          rw [hkind] at hbody hrest
          simp only
          split
          · next h => exact hbody h.2 (Or.inr h.1)
          · next h =>
              rcases Bool.eq_false_or_eq_true (startsWithDigit text) with htakes | htakes
              · exact hrest (Or.inr fun hroom => h ⟨hroom.resolve_left nofun, htakes⟩)
              · exact hrest (Or.inl htakes)
      | singleline =>
          rw [hkind] at hbody hrest
          simp only
          split
          · next h => exact hbody h.2 (Or.inr h.1)
          · next h =>
              rcases Bool.eq_false_or_eq_true (strStartsWith text command.responsePrefix) with
                htakes | htakes
              · exact hrest (Or.inr fun hroom => h ⟨hroom.resolve_left nofun, htakes⟩)
              · exact hrest (Or.inl htakes)
      | multiline =>
          rw [hkind] at hbody hrest
          simp only
          split
          · next htakes => exact hbody htakes (Or.inl rfl)
          · next htakes => exact hrest (Or.inl (Bool.eq_false_iff.2 htakes))

theorem message_toChannel (s : Session) (line1 line2 : List UInt8) :
    { s.toChannel with unsolicited := s.told ++ [(line1, some line2)] } =
      (s.put (.message line1 line2)).toChannel := by
  cases hs : s.current with
  | none => simp only [Session.toChannel, Session.put, hs, Session.told, Option.map_none,
      Arrived.call]
  | some p =>
      obtain ⟨command, as⟩ := p
      have hbody : command.body (.message line1 line2) = none := rfl
      simp only [Session.toChannel, Session.put, hs, Session.told, Option.map_some, Pending.of,
        intermediates_concat_rest (Or.inl hbody), others_concat_rest (Or.inl hbody), told_concat,
        lastFinal_concat, succeeded, Arrived.final, Option.none_or, Option.isNone_none,
        Bool.or_true, if_true, Arrived.call, List.append_assoc]

/-- **One line, or the two of a message**: the channel goes to the state that the longer list
says. -/
theorem processArrived_toChannel (s : Session) (a : Arrived) :
    processArrived s.toChannel a = (s.arrive a).toChannel := by
  cases a with
  | line text => exact processLine_toChannel { s with arrived := s.arrived ++ [.line text] } text
  | message line1 line2 =>
      exact message_toChannel { s with arrived := s.arrived ++ [.message line1 line2] } line1 line2

/-! ### Runs -/

/-- The commands of the programs: they send no message and no data. -/
def Event.Plain : Event → Prop
  | .send command _ => command.smspdu = none
  | .sendRaw _ _ _ => False
  | _ => True

theorem Pending.of_nil {command : Command} (h : command.smspdu = none) :
    Pending.of command [] = ⟨command, command.smspdu, [], none, false⟩ := by
  have hnil : command.intermediates [] = [] := intermediates_eq_nil.2 rfl
  rw [Pending.of, hnil, h]
  rfl

theorem Session.told_start {s : Session} {command : Command} (hs : s.current = none) :
    ({ s with current := some (command, []) } : Session).told = s.told := by
  have hnil : command.others [] = [] := by
    rw [Command.others]
    split
    · rfl
    · rfl
  simp only [Session.told, hs, hnil]
  exact List.append_nil _

theorem startCommand_toChannel {s : Session} {command : Command} (written : Bool)
    (hs : s.current = none) (hplain : command.smspdu = none) :
    startCommand s.toChannel command written = (s.send command written).toChannel := by
  have hclosed : s.toChannel.readerClosed = s.closed := rfl
  rw [startCommand, Session.send, hclosed]
  split
  · simp only [Session.toChannel, Session.told, hs]
  · split
    · simp only [Session.toChannel, Session.told_start hs, Option.map_some, Pending.of_nil hplain]
    · simp only [Session.toChannel, Session.told, hs]

theorem Session.finish_toChannel (s : Session) (r : Result) :
    { s.toChannel with pending := none, results := s.toChannel.results ++ [r] } =
      (s.finish r).toChannel := rfl

theorem wake_toChannel (s : Session) (command : Command) (as : List Arrived) :
    wake s.toChannel (Pending.of command as) = (s.wake command as).toChannel := by
  have hclosed : s.toChannel.readerClosed = s.closed := rfl
  have hfinal : (Pending.of command as).finalResponse = lastFinal as := rfl
  have hreverse : (Pending.of command as).intermediates.reverse = command.intermediates as :=
    List.reverse_reverse _
  rw [wake, Session.wake, hclosed, hfinal, hreverse]
  split
  · exact Session.finish_toChannel s _
  · split
    · rfl
    · exact Session.finish_toChannel s _

/-- **One step.** -/
theorem step_toChannel (s : Session) (e : Event) (h : e.Plain) :
    step s.toChannel e = (s.step e).map Session.toChannel := by
  have hpending : s.toChannel.pending = s.current.map fun p => Pending.of p.1 p.2 := rfl
  cases e with
  | arrive a => exact congrArg some (processArrived_toChannel s a)
  | send command written =>
      rw [step, Session.step, hpending]
      cases hs : s.current with
      | none => exact congrArg some (startCommand_toChannel written hs h)
      | some p => rfl
  | sendRaw command rawData written => exact h.elim
  | wake =>
      rw [step, Session.step, hpending]
      cases s.current with
      | none => rfl
      | some p => exact congrArg some (wake_toChannel s p.1 p.2)
  | timeout =>
      rw [step, Session.step, hpending]
      cases s.current with
      | none => rfl
      | some p => exact congrArg some (Session.finish_toChannel s .timeout)
  | close => rfl

/-- **In every run, whatever the order of the two threads**, the channel is in the states that the
session says: a command gets all the lines that it takes of those that have come since it was sent,
or the first one, and the last one that ends an answer, and the handler is told the others, in their
order. -/
theorem run_refines (proxy : Bool) {events : List Event} (h : ∀ e ∈ events, e.Plain) :
    EventRun.states step (Channel.open proxy) events =
      (EventRun.states Session.step (Session.open proxy) events).map Session.toChannel :=
  EventRun.states_map step_toChannel (Session.open proxy) h

/-- The signal strength is asked for; the modem says something else in between. -/
def signalRun : List Event :=
  [.send ⟨ascii "AT+CSQ".toList, .singleline, ascii "+CSQ:".toList, none⟩ true,
    .arrive (.line (ascii "+CREG: 1".toList)), .wake, .arrive (.line (ascii "+CSQ: 23,99".toList)),
    .arrive (.line (ascii "OK".toList)), .arrive (.line (ascii "RDY".toList)), .wake]

theorem run_refines_signal :
    EventRun.states step (Channel.open false) signalRun =
      (EventRun.states Session.step (Session.open false) signalRun).map Session.toChannel :=
  run_refines false (by simp [signalRun, Event.Plain])

/-! ### No line is lost -/

/-- The lines that the caller of a command gets. -/
def Result.lines : Result → List (List UInt8)
  | .response _ intermediates _ => intermediates
  | .closed (some (_, intermediates, _)) => intermediates
  | _ => []

/-- The lines that have been given to commands, in their order. -/
def Channel.answered (c : Channel) : List (List UInt8) :=
  c.results.flatMap Result.lines ++ (c.pending.map fun p => p.intermediates.reverse).getD []

def Session.answered (s : Session) : List (List UInt8) :=
  s.results.flatMap Result.lines ++ (s.current.map fun p => p.1.intermediates p.2).getD []

theorem Session.answered_toChannel (s : Session) : s.toChannel.answered = s.answered := by
  rw [Channel.answered, Session.answered, Session.toChannel]
  cases s.current with
  | none => rfl
  | some p =>
      have hreverse : (Pending.of p.1 p.2).intermediates.reverse = p.1.intermediates p.2 :=
        List.reverse_reverse _
      simp only [Option.map_some, hreverse]

/-- A command that times out is given nothing, and the lines that it has taken are lost. -/
def Event.IsTimeout : Event → Prop
  | .timeout => True
  | _ => False

/-- A thing that has come is a line that the command takes and has room for, or not. -/
theorem body_or_rest (command : Command) (as : List Arrived) (a : Arrived) :
    (∃ text, command.body a = some text ∧
      (command.type = .multiline ∨ command.intermediates as = [])) ∨
    (command.body a = none ∨ ¬ (command.type = .multiline ∨ command.intermediates as = [])) := by
  cases hbody : command.body a with
  | none => exact Or.inr (Or.inl rfl)
  | some text =>
      by_cases hroom : command.type = .multiline ∨ command.intermediates as = []
      · exact Or.inl ⟨text, rfl, hroom⟩
      · exact Or.inr (Or.inr hroom)

theorem call_of_body {command : Command} {a : Arrived} {text : List UInt8}
    (h : command.body a = some text) : a.call = (text, none) := by
  cases a with
  | line text' =>
      rw [Command.body] at h
      split at h
      · cases h
      · split at h
        · cases h
          rfl
        · cases h
  | message line1 line2 => cases h

/-- All that has come has been told, has been given to a command or is one of the lines that end
an answer; of these none is kept from a handler that serves clients. -/
structure Session.Conserves (s : Session) (proxy : Bool) (ends : List Arrived) : Prop where
  handler : s.proxy = proxy
  final : ∀ a ∈ ends, a.final.isSome
  served : proxy = true → ends = []
  count : ∀ x, (s.arrived.map Arrived.call).count x =
    s.told.count x + (s.answered.map fun text => (text, none)).count x +
      (ends.map Arrived.call).count x

section Conserves

variable {s : Session} {proxy : Bool} {ends : List Arrived}

/-- When the parts are the same, they add up to the same. -/
theorem Session.Conserves.congr (h : s.Conserves proxy ends) {t : Session}
    (hproxy : t.proxy = s.proxy) (harrived : t.arrived = s.arrived) (htold : t.told = s.told)
    (hanswered : t.answered = s.answered) : t.Conserves proxy ends :=
  ⟨hproxy.trans h.handler, h.final, h.served, fun x => by rw [harrived, htold, hanswered, h.count]⟩

/-- What has come is one thing more, and so are the parts. -/
theorem Session.Conserves.arrive (h : s.Conserves proxy ends) (a : Arrived) :
    ∃ ends', (s.arrive a).Conserves proxy ends' := by
  have hproxy : (s.arrive a).proxy = s.proxy := by
    rw [Session.arrive, Session.put]
    split
    · rfl
    · rfl
  cases hs : s.current with
  | none =>
      obtain rfl := h.handler
      refine ⟨ends, hproxy.trans h.handler, h.final, h.served, fun x => ?_⟩
      have hcount := h.count x
      simp only [Session.told, Session.answered, hs] at hcount
      simp only [Session.arrive, Session.put, Session.told, Session.answered, hs, List.map_append,
        List.count_append, hcount, List.map_cons, List.map_nil]
      omega
  | some p =>
      obtain ⟨command, as⟩ := p
      obtain rfl := h.handler
      have hcount := h.count
      simp only [Session.told, Session.answered, hs, Option.map_some, Option.getD_some,
        List.map_append, List.count_append] at hcount
      rcases body_or_rest command as a with ⟨text, hbody, hroom⟩ | hrest
      · refine ⟨ends, hproxy.trans h.handler, h.final, h.served, fun x => ?_⟩
        simp only [Session.arrive, Session.put, Session.told, Session.answered, hs, Option.map_some,
          Option.getD_some, List.map_append, List.count_append, hcount,
          others_concat_body hbody hroom, intermediates_concat_body hbody hroom, List.map_cons,
          List.map_nil, call_of_body hbody]
        omega
      by_cases hkeep : (s.proxy || a.final.isNone) = true
      · refine ⟨ends, hproxy.trans h.handler, h.final, h.served, fun x => ?_⟩
        simp only [Session.arrive, Session.put, Session.told, Session.answered, hs, Option.map_some,
          Option.getD_some, List.map_append, List.count_append, hcount, others_concat_rest hrest,
          intermediates_concat_rest hrest, told_concat, hkeep, if_true, List.map_cons, List.map_nil]
        omega
      · rw [Bool.or_eq_true, not_or] at hkeep
        refine ⟨ends ++ [a], hproxy, ?_, fun hp => absurd hp hkeep.1, fun x => ?_⟩
        · intro b hb
          rcases List.mem_append.1 hb with hb | hb
          · exact h.final b hb
          · rw [List.mem_singleton.1 hb, ← Option.not_isNone]
            exact Bool.not_eq_true' _ ▸ Bool.eq_false_iff.2 hkeep.2
        · have hno : ¬ (s.proxy || a.final.isNone) = true := by
            rw [Bool.or_eq_true, not_or]
            exact hkeep
          simp only [Session.arrive, Session.put, Session.told, Session.answered, hs,
            Option.map_some, Option.getD_some, List.map_append, List.count_append, hcount,
            others_concat_rest hrest, intermediates_concat_rest hrest, told_concat, if_neg hno,
            List.append_nil, List.map_cons, List.map_nil]
          omega

/-- A command that returns gives the lines to its caller. -/
theorem Session.Conserves.finish (h : s.Conserves proxy ends) {command : Command}
    {as : List Arrived} (hs : s.current = some (command, as)) {r : Result}
    (hr : r.lines = command.intermediates as) : (s.finish r).Conserves proxy ends := by
  refine h.congr rfl rfl rfl ?_
  simp only [Session.answered, Session.finish, hs, List.flatMap_append, List.flatMap_cons,
    List.flatMap_nil, hr, Option.map_some, Option.map_none, Option.getD_some, Option.getD_none,
    List.append_nil]

/-- **One step.** -/
theorem Session.Conserves.step (h : s.Conserves proxy ends) {e : Event} (he : ¬ e.IsTimeout)
    {t : Session} (ht : s.step e = some t) : ∃ ends', t.Conserves proxy ends' := by
  cases e with
  | arrive a =>
      cases ht
      exact h.arrive a
  | send command written =>
      rw [Session.step] at ht
      split at ht
      · cases ht
      next hs =>
        cases ht
        have hnone : s.current = none := Option.not_isSome_iff_eq_none.1 hs
        refine ⟨ends, ?_⟩
        rw [Session.send]
        split
        · refine h.congr rfl rfl rfl ?_
          simp [Session.answered, Result.lines]
        · split
          · have hnil : command.intermediates [] = [] := intermediates_eq_nil.2 rfl
            refine h.congr rfl rfl (Session.told_start hnone) ?_
            simp only [Session.answered, hnone, Option.map_some, Option.map_none, hnil,
              Option.getD_some, Option.getD_none]
          · refine h.congr rfl rfl rfl ?_
            simp [Session.answered, Result.lines]
  | sendRaw command rawData written => cases ht
  | wake =>
      rw [Session.step] at ht
      cases hs : s.current with
      | none =>
          rw [hs] at ht
          cases ht
      | some p =>
          obtain ⟨command, as⟩ := p
          rw [hs] at ht
          obtain rfl : s.wake command as = t := Option.some.inj ht
          refine ⟨ends, ?_⟩
          rw [Session.wake]
          split
          · exact h.finish hs rfl
          · split
            · exact h
            · exact h.finish hs rfl
  | timeout => exact absurd trivial he
  | close =>
      cases ht
      exact ⟨ends, h.congr rfl rfl rfl rfl⟩

/-- **A run** in which no command times out. -/
theorem conserves_of_mem_states (proxy : Bool) {events : List Event}
    (htimeout : ∀ e ∈ events, ¬ e.IsTimeout) {s : Session}
    (hs : s ∈ EventRun.states Session.step (Session.open proxy) events) :
    ∃ ends, s.Conserves proxy ends := by
  have hstart : (Session.open proxy).Conserves proxy [] :=
    ⟨rfl, fun _ h => absurd h List.not_mem_nil, fun _ => rfl, fun _ => rfl⟩
  exact EventRun.guarded_invariant (fun s : Session => ∃ ends, s.Conserves proxy ends)
    (fun _ e => ¬ e.IsTimeout) (fun _ _ _ hs he ht => hs.elim fun _ hs => hs.step he ht)
    ⟨[], hstart⟩ (fun p hp => htimeout p.2 (EventRun.mem_of_mem_moves hp)) s hs

/-- The parts of a channel. -/
theorem Session.Conserves.perm (h : s.Conserves proxy ends) :
    (s.toChannel.arrived.map Arrived.call).Perm
      (s.toChannel.unsolicited ++ s.toChannel.answered.map (fun text => (text, none)) ++
        ends.map Arrived.call) := by
  refine List.perm_iff_count.2 fun x => ?_
  rw [Session.answered_toChannel, List.count_append, List.count_append]
  exact h.count x

end Conserves

/-- **No line is lost, and none is given to two**: while no command times out, all that has come has
been told or given to a command, once; only the lines that end an answer can be kept from the
handler, and not from the one of the program that serves clients. -/
theorem run_conserves (proxy : Bool) {events : List Event} (hplain : ∀ e ∈ events, e.Plain)
    (htimeout : ∀ e ∈ events, ¬ e.IsTimeout) :
    ∀ c ∈ EventRun.states step (Channel.open proxy) events, ∃ ends : List Arrived,
      (∀ a ∈ ends, a.final.isSome) ∧ (proxy = true → ends = []) ∧
        (c.arrived.map Arrived.call).Perm
          (c.unsolicited ++ c.answered.map (fun text => (text, none)) ++
            ends.map Arrived.call) := by
  intro c hc
  have hstates : EventRun.states step (Channel.open proxy) events =
      (EventRun.states Session.step (Session.open proxy) events).map Session.toChannel :=
    EventRun.states_map step_toChannel (Session.open proxy) hplain
  rw [hstates, List.mem_map] at hc
  obtain ⟨s, hs, rfl⟩ := hc
  obtain ⟨ends, hends⟩ := conserves_of_mem_states proxy htimeout hs
  exact ⟨ends, hends.final, hends.served, hends.perm⟩

theorem run_conserves_signal :
    (∃ c ∈ EventRun.states step (Channel.open true) signalRun,
      c.unsolicited ≠ [] ∧ c.answered ≠ []) ∧
    ∀ c ∈ EventRun.states step (Channel.open true) signalRun, ∃ ends : List Arrived,
      (∀ a ∈ ends, a.final.isSome) ∧ (true = true → ends = []) ∧
        (c.arrived.map Arrived.call).Perm
          (c.unsolicited ++ c.answered.map (fun text => (text, none)) ++
            ends.map Arrived.call) :=
  ⟨by decide +kernel,
    run_conserves true (by simp [signalRun, Event.Plain]) (by simp [signalRun, Event.IsTimeout])⟩

end Atc

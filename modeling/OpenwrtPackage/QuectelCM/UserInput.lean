/-
**The command line of quectel-CM.**

`parse_user_input` reads the words of the command line from left to right.  A word that begins
with `-` is an option, and an option takes the words behind it as its values for as long as they
do not begin with `-`.

* `QuectelCM.UserInput` — the part of `PROFILE_T` that the user sets;
* `QuectelCM.parseOption`, `QuectelCM.parseUserInput` — one turn of the loop, and the function;
* `QuectelCM.parseArgs_cons` — the loop, word by word;
* `QuectelCM.parseUserInput_invariant` — what every option keeps;
* `QuectelCM.parseUserInput_plain` — **no value that is read begins with `-`**;
* `QuectelCM.parseUserInput_together` — apn, user and password are there together;
* `QuectelCM.parseUserInput_ids` — which words the numbers of `-n` and `-m` come from.
-/
import OpenwrtPackage.Lib.Scan

set_option relaxedAutoImplicit false
set_option autoImplicit false

namespace QuectelCM

/-- A word of a command line: its characters in front of the NUL. -/
abbrev Word := List Char

/-- What `parse_user_input` stores: the user's part of `PROFILE_T`, and `debug_qmi`. -/
structure UserInput where
  apn : Option Word
  user : Option Word
  password : Option Word
  auth : ℤ
  pincode : Option Word
  proxy : Word
  pdp : ℤ
  enableBridge : Bool
  enableIpv4 : Bool
  enableIpv6 : Bool
  logfile : Option Word
  usblogfile : Option Word
  expectAdapter : Word
  killPdp : ℤ
  replicationFactor : ℤ
  muxid : ℤ
  loopbackState : Bool
  debugQmi : Bool
  deriving DecidableEq

/-- `s_profile` as the program starts. -/
def UserInput.init : UserInput where
  apn := none
  user := none
  password := none
  auth := 0
  pincode := none
  proxy := []
  pdp := 0
  enableBridge := false
  enableIpv4 := false
  enableIpv6 := false
  logfile := none
  usblogfile := none
  expectAdapter := []
  killPdp := 0
  replicationFactor := 0
  muxid := 0
  loopbackState := false
  debugQmi := false

/-! ### The options -/

/-- `argv[opt][0] == '-'` -/
def isOption (w : Word) : Bool := w.head? = some '-'

/-- `has_more_argv()` and `argv[opt++]`: the next value, if there is one. -/
def moreArgv : List Word → Option (Word × List Word)
  | [] => none
  | w :: ws => if isOption w then none else some (w, ws)

/-- `if (has_more_argv()) …` -/
def takeValue (store : Word → UserInput → UserInput) (p : UserInput) (args : List Word) :
    UserInput × List Word :=
  match moreArgv args with
  | none => (p, args)
  | some (w, rest) => (store w p, rest)

/-- `argv[opt][0] - '0'`; behind an empty word stands its NUL. -/
def firstDigit (w : Word) : ℤ := ((w.head?.map Char.toNat).getD 0 : ℕ) - 48

/-- `atoi` -/
def atoi (w : Word) : ℤ := CScan.toInt (CScan.strtol 10 w).1

/-- `strcasecmp(a, b) == 0` -/
def sameIgnoringCase (a b : Word) : Bool := a.map Char.toLower = b.map Char.toLower

/-- The number of an authentication type, `none` where it is unknown. -/
def parseAuth (auth : Word) : Option ℤ :=
  if auth = ['0'] || sameIgnoringCase auth "none".toList then some 0
  else if auth = ['1'] || sameIgnoringCase auth "pap".toList then some 1
  else if auth = ['2'] || sameIgnoringCase auth "chap".toList then some 2
  else if auth = ['3'] || sameIgnoringCase auth "MsChapV2".toList then some 3
  else none

/-- The names that `-p` takes as proxies. -/
def proxies : List Word :=
  ["quectel-qmi-proxy".toList, "quectel-mbim-proxy".toList, "qmi-proxy".toList,
    "mbim-proxy".toList, "quectel-atc-proxy".toList]

/-- `profile->user = argv[opt++]` -/
def storeUser (w : Word) (p : UserInput) : UserInput := { p with user := some w }

/-- `profile->password = argv[opt++]`: with a password, CHAP is assumed. -/
def storePassword (w : Word) (p : UserInput) : UserInput :=
  { p with password := some w, auth := if w = [] then p.auth else 2 }

/-- `case 's'` -/
def parseS (p : UserInput) (args : List Word) : Option (UserInput × List Word) :=
  let start := { p with apn := some [], user := some [], password := some [] }
  let apn := takeValue (fun w p => { p with apn := some w }) start args
  let user := takeValue storeUser apn.1 apn.2
  let password := takeValue storePassword user.1 user.2
  match moreArgv password.2 with
  | none => some password
  | some (w, rest) => (parseAuth w).map fun auth => ({ password.1 with auth := auth }, rest)

/-- `case 'p'` -/
def parseP (p : UserInput) (args : List Word) : Option (UserInput × List Word) :=
  match moreArgv args with
  | none => some (p, args)
  | some (w, rest) =>
      if w ∈ proxies then some ({ p with proxy := w.take 31 }, rest)
      else if 999 < atoi w ∧ atoi w < 10000 then some ({ p with pincode := some w }, rest)
      else none

/-- `case 'l'` -/
def storeReplication (w : Word) (p : UserInput) : UserInput :=
  { p with
    replicationFactor := atoi w
    loopbackState := p.loopbackState || decide (0 < atoi w) }

/-- The `switch`: `c` is the character behind the `-`, and `none` is `usage`. -/
def parseOption (c : Option Char) (p : UserInput) (args : List Word) :
    Option (UserInput × List Word) :=
  match c with
  | some 's' => parseS p args
  | some 'p' => parseP p args
  | some 'm' => some (takeValue (fun w p => { p with muxid := firstDigit w + 0x80 }) p args)
  | some 'n' => some (takeValue (fun w p => { p with pdp := firstDigit w }) p args)
  | some 'f' => some (takeValue (fun w p => { p with logfile := some w }) p args)
  | some 'i' => some (takeValue (fun w p => { p with expectAdapter := w.take 31 }) p args)
  | some 'v' => some ({ p with debugQmi := true }, args)
  | some 'l' => some (takeValue storeReplication p args)
  | some '4' => some ({ p with enableIpv4 := true }, args)
  | some '6' => some ({ p with enableIpv6 := true }, args)
  | some 'u' => some (takeValue (fun w p => { p with usblogfile := some w }) p args)
  | some 'b' => some ({ p with enableBridge := true }, args)
  | some 'k' => some (takeValue (fun w p => { p with killPdp := firstDigit w }) p args)
  | _ => none

/-- `while (opt < argc)`; each turn takes a word, so as many turns as words are enough. -/
def parseLoop : ℕ → UserInput → List Word → Option UserInput
  | _, p, [] => some p
  | 0, _, _ :: _ => none
  | fuel + 1, p, w :: ws =>
      if isOption w then
        (parseOption w.tail.head? p ws).bind fun next => parseLoop fuel next.1 next.2
      else none

/-- The words behind the name of the program. -/
def parseArgs (p : UserInput) (args : List Word) : Option UserInput :=
  parseLoop args.length p args

/-- `default enable IPv4` -/
def defaultFamily (p : UserInput) : UserInput :=
  if p.enableIpv4 = false ∧ p.enableIpv6 = false then { p with enableIpv4 := true } else p

/-- `parse_user_input`, `none` where it returns 0. -/
def parseUserInput (argv : List Word) (p : UserInput) : Option UserInput :=
  let argv := if argv.getLast? = some ['&'] then argv.dropLast else argv
  (parseArgs { p with pdp := 1 } argv.tail).map defaultFamily

/-! ### Word by word -/

theorem moreArgv_option {w : Word} (h : isOption w = true) (ws : List Word) :
    moreArgv (w :: ws) = none := by
  rw [moreArgv, if_pos h]

theorem moreArgv_value {w : Word} (h : isOption w = false) (ws : List Word) :
    moreArgv (w :: ws) = some (w, ws) := by
  rw [moreArgv, h]
  rfl

/-- A value that is taken does not begin with `-`. -/
theorem isOption_of_moreArgv {args rest : List Word} {w : Word}
    (h : moreArgv args = some (w, rest)) : isOption w = false := by
  cases args with
  | nil => cases h
  | cons v ws =>
      rw [moreArgv] at h
      split at h
      · cases h
      · rename_i hv
        cases h
        simpa using hv

/-- Words are taken off the front, and none of them begins with `-`. -/
def Takes (args rest : List Word) : Prop :=
  ∃ vs, args = vs ++ rest ∧ ∀ v ∈ vs, isOption v = false

theorem Takes.refl (args : List Word) : Takes args args := ⟨[], rfl, by simp⟩

theorem Takes.trans {args rest last : List Word} (h : Takes args rest) (hrest : Takes rest last) :
    Takes args last := by
  obtain ⟨vs, rfl, hvs⟩ := h
  obtain ⟨us, rfl, hus⟩ := hrest
  refine ⟨vs ++ us, (List.append_assoc ..).symm, ?_⟩
  intro v hv
  rcases List.mem_append.1 hv with hv | hv
  · exact hvs v hv
  · exact hus v hv

theorem Takes.length_le {args rest : List Word} (h : Takes args rest) :
    rest.length ≤ args.length := by
  obtain ⟨vs, rfl, -⟩ := h
  rw [List.length_append]
  exact Nat.le_add_left ..

theorem takes_of_moreArgv {args rest : List Word} {w : Word}
    (h : moreArgv args = some (w, rest)) : Takes args rest := by
  have hw := isOption_of_moreArgv h
  cases args with
  | nil => cases h
  | cons v ws =>
      rw [moreArgv] at h
      split at h
      · cases h
      · cases h
        refine ⟨[w], rfl, ?_⟩
        intro v hv
        rwa [List.mem_singleton.1 hv]

theorem takeValue_option {w : Word} (h : isOption w = true) (ws : List Word)
    (store : Word → UserInput → UserInput) (p : UserInput) :
    takeValue store p (w :: ws) = (p, w :: ws) := by
  rw [takeValue, moreArgv_option h]

theorem takeValue_value {w : Word} (h : isOption w = false) (ws : List Word)
    (store : Word → UserInput → UserInput) (p : UserInput) :
    takeValue store p (w :: ws) = (store w p, ws) := by
  rw [takeValue, moreArgv_value h]

@[simp] theorem takeValue_nil (store : Word → UserInput → UserInput) (p : UserInput) :
    takeValue store p [] = (p, []) := rfl

theorem takeValue_takes (store : Word → UserInput → UserInput) (p : UserInput)
    (args : List Word) : Takes args (takeValue store p args).2 := by
  rw [takeValue]
  split
  · exact .refl args
  · rename_i h
    exact takes_of_moreArgv h

/-- `-s` takes up to four values. -/
theorem parseS_takes {p : UserInput} {args : List Word} {next : UserInput × List Word}
    (h : parseS p args = some next) : Takes args next.2 := by
  rw [parseS] at h
  have hpassword : ∀ p' : UserInput, Takes args (takeValue storePassword
      (takeValue storeUser (takeValue (fun w p => { p with apn := some w }) p' args).1
        (takeValue (fun w p => { p with apn := some w }) p' args).2).1
      (takeValue storeUser (takeValue (fun w p => { p with apn := some w }) p' args).1
        (takeValue (fun w p => { p with apn := some w }) p' args).2).2).2 :=
    fun _ => (takeValue_takes ..).trans ((takeValue_takes ..).trans (takeValue_takes ..))
  split at h
  · cases h
    exact hpassword _
  · rename_i hmore
    obtain ⟨auth, -, rfl⟩ := Option.map_eq_some_iff.1 h
    exact (hpassword _).trans (takes_of_moreArgv hmore)

/-- `-p` sets the proxy or the PIN, with the value that it takes. -/
theorem parseP_cases {p : UserInput} {args : List Word} {next : UserInput × List Word}
    (h : parseP p args = some next) :
    (∃ proxy pincode, next.1 = { p with proxy := proxy, pincode := pincode }) ∧
      Takes args next.2 := by
  rw [parseP] at h
  split at h
  · cases h
    exact ⟨⟨p.proxy, p.pincode, rfl⟩, .refl args⟩
  · rename_i w rest hmore
    split at h
    · cases h
      exact ⟨⟨w.take 31, p.pincode, rfl⟩, takes_of_moreArgv hmore⟩
    · split at h
      · cases h
        exact ⟨⟨p.proxy, some w, rfl⟩, takes_of_moreArgv hmore⟩
      · cases h

/-- An option takes nothing but its values. -/
theorem parseOption_takes {c : Option Char} {p : UserInput} {args : List Word}
    {next : UserInput × List Word} (h : parseOption c p args = some next) :
    Takes args next.2 := by
  unfold parseOption at h
  split at h
  case h_1 => exact parseS_takes h
  case h_2 => exact (parseP_cases h).2
  all_goals first
    | (cases h; exact takeValue_takes ..)
    | (cases h; exact .refl args)
    | cases h

/-- An option leaves no more words than there were behind it. -/
theorem parseOption_length {c : Option Char} {p : UserInput} {args : List Word}
    {next : UserInput × List Word} (h : parseOption c p args = some next) :
    next.2.length ≤ args.length :=
  (parseOption_takes h).length_le

theorem parseLoop_eq_parseArgs {fuel : ℕ} {p : UserInput} {args : List Word}
    (h : args.length ≤ fuel) : parseLoop fuel p args = parseArgs p args := by
  -- Each turn of the loop takes a word or more, so fuel for all the words is enough.
  have hall : ∀ (n : ℕ) (p : UserInput) (args : List Word), args.length ≤ n →
      ∀ fuel, n ≤ fuel → parseLoop fuel p args = parseLoop n p args := by
    intro n
    induction n with
    | zero =>
        intro p args hargs fuel _
        obtain rfl : args = [] := List.length_eq_zero_iff.1 (Nat.le_zero.1 hargs)
        cases fuel <;> rfl
    | succ n ih =>
        intro p args hargs fuel hfuel
        obtain ⟨fuel, rfl⟩ := Nat.exists_eq_succ_of_ne_zero (Nat.ne_zero_of_lt hfuel)
        cases args with
        | nil => rfl
        | cons w ws =>
            rw [parseLoop, parseLoop]
            cases hnext : parseOption w.tail.head? p ws with
            | none => rfl
            | some next =>
                have hlen := (parseOption_length hnext).trans (Nat.le_of_succ_le_succ hargs)
                rw [Option.bind_some, Option.bind_some,
                  ih next.1 next.2 hlen fuel (Nat.le_of_succ_le_succ hfuel)]
  exact hall args.length p args (Nat.le_refl _) fuel h

@[simp] theorem parseArgs_nil (p : UserInput) : parseArgs p [] = some p := rfl

/-- A word where an option should stand ends in `usage`. -/
theorem parseArgs_value {w : Word} (h : isOption w = false) (p : UserInput) (ws : List Word) :
    parseArgs p (w :: ws) = none := by
  rw [parseArgs, List.length_cons, parseLoop, h]
  rfl

/-- An option and what is behind it. -/
theorem parseArgs_cons {w : Word} (h : isOption w = true) (p : UserInput) (ws : List Word) :
    parseArgs p (w :: ws) =
      (parseOption w.tail.head? p ws).bind fun next => parseArgs next.1 next.2 := by
  rw [parseArgs, List.length_cons, parseLoop, if_pos h]
  cases hnext : parseOption w.tail.head? p ws with
  | none => rfl
  | some next => exact parseLoop_eq_parseArgs (parseOption_length hnext)

/-! ### Values never begin with `-` -/

/-- No string of the `-s` option begins with `-`. -/
structure UserInput.Plain (p : UserInput) : Prop where
  apn : ∀ w ∈ p.apn, isOption w = false
  user : ∀ w ∈ p.user, isOption w = false
  password : ∀ w ∈ p.password, isOption w = false

/-- What holds of a profile, and still holds with a value that does not begin with `-`. -/
theorem takeValue_invariant {Q : UserInput → Prop} {store : Word → UserInput → UserInput}
    {p : UserInput} (hstore : ∀ w, isOption w = false → Q (store w p)) (hp : Q p)
    (args : List Word) : Q (takeValue store p args).1 := by
  rw [takeValue]
  split
  · exact hp
  · rename_i hmore
    exact hstore _ (isOption_of_moreArgv hmore)

theorem some_plain {v : Word} (hv : isOption v = false) : ∀ w ∈ some v, isOption w = false := by
  intro w hw
  rwa [← Option.some.inj hw]

/-- What `-s` leaves, when each of its values is one that `Q` allows. -/
theorem parseS_invariant {Q : UserInput → Prop} {p : UserInput} {args : List Word}
    {next : UserInput × List Word}
    (hstart : Q { p with apn := some [], user := some [], password := some [] })
    (hvalue : ∀ w, isOption w = false → ∀ p, Q p →
      Q { p with apn := some w } ∧ Q (storeUser w p) ∧ Q (storePassword w p))
    (hauth : ∀ p auth, Q p → Q { p with auth := auth }) (h : parseS p args = some next) :
    Q next.1 := by
  have hapn := @takeValue_invariant Q (fun w p => { p with apn := some w }) _
    (fun w hw => (hvalue w hw _ hstart).1) hstart args
  rw [parseS] at h
  revert h
  generalize takeValue (fun w p => { p with apn := some w })
    { p with apn := some [], user := some [], password := some [] } args = apn at hapn ⊢
  intro h
  have huser := @takeValue_invariant Q storeUser _
    (fun w hw => (hvalue w hw _ hapn).2.1) hapn apn.2
  have hpassword := @takeValue_invariant Q storePassword _
    (fun w hw => (hvalue w hw _ huser).2.2) huser (takeValue storeUser apn.1 apn.2).2
  dsimp only at h
  split at h
  · cases h
    exact hpassword
  · obtain ⟨auth, -, rfl⟩ := Option.map_eq_some_iff.1 h
    exact hauth _ auth hpassword

/-- The strings of `-s` are as before. -/
structure UserInput.SameStrings (p q : UserInput) : Prop where
  apn : q.apn = p.apn
  user : q.user = p.user
  password : q.password = p.password

theorem parseP_strings {p : UserInput} {args : List Word} {next : UserInput × List Word}
    (h : parseP p args = some next) : p.SameStrings next.1 := by
  obtain ⟨⟨proxy, pincode, hnext⟩, -⟩ := parseP_cases h
  rw [hnext]
  exact ⟨rfl, rfl, rfl⟩

/-- Only `-s` changes the strings. -/
theorem parseOption_strings {c : Option Char} {p : UserInput} {args : List Word}
    {next : UserInput × List Word} (h : parseOption c p args = some next) :
    parseS p args = some next ∨ p.SameStrings next.1 := by
  unfold parseOption at h
  split at h
  case h_1 => exact Or.inl h
  case h_2 => exact Or.inr (parseP_strings h)
  all_goals first
    | (cases h
       exact Or.inr (@takeValue_invariant p.SameStrings _ _ (fun _ _ => ⟨rfl, rfl, rfl⟩)
        ⟨rfl, rfl, rfl⟩ args))
    | (cases h; exact Or.inr ⟨rfl, rfl, rfl⟩)
    | cases h

/-- One option keeps the values plain. -/
theorem parseOption_plain {c : Option Char} {p : UserInput} (hp : p.Plain) {args : List Word}
    {next : UserInput × List Word} (h : parseOption c p args = some next) : next.1.Plain := by
  rcases parseOption_strings h with hs | hsame
  · refine parseS_invariant (Q := UserInput.Plain) ⟨some_plain rfl, some_plain rfl, some_plain rfl⟩
      (fun w hw p hp => ⟨?_, ?_, ?_⟩) (fun p auth hp => ⟨hp.apn, hp.user, hp.password⟩) hs
    · exact ⟨some_plain hw, hp.user, hp.password⟩
    · exact ⟨hp.apn, some_plain hw, hp.password⟩
    · exact ⟨hp.apn, hp.user, some_plain hw⟩
  · refine ⟨?_, ?_, ?_⟩
    · rw [hsame.apn]
      exact hp.apn
    · rw [hsame.user]
      exact hp.user
    · rw [hsame.password]
      exact hp.password

/-- The loop is an induction over the options. -/
theorem parseArgs_induction {R : UserInput → List Word → UserInput → Prop} (hnil : ∀ p, R p [] p)
    (hoption : ∀ (p : UserInput) (w : Word) (ws : List Word) (next : UserInput × List Word)
      (q : UserInput), isOption w = true → parseOption w.tail.head? p ws = some next →
        R next.1 next.2 q → R p (w :: ws) q)
    {args : List Word} : ∀ {p q : UserInput}, parseArgs p args = some q → R p args q := by
  induction hlen : args.length using Nat.strongRecOn generalizing args with
  | _ n ih =>
      intro p q h
      cases args with
      | nil =>
          cases h
          exact hnil p
      | cons w ws =>
          cases hw : isOption w with
          | false =>
              rw [parseArgs_value hw] at h
              cases h
          | true =>
              rw [parseArgs_cons hw] at h
              obtain ⟨next, hnext, hrest⟩ := Option.bind_eq_some_iff.1 h
              have hlt : next.2.length < n := by
                rw [← hlen]
                exact Nat.lt_succ_of_le (parseOption_length hnext)
              exact hoption p w ws next q hw hnext (ih next.2.length hlt rfl hrest)

/-- What every option keeps is kept by the whole loop. -/
theorem parseArgs_invariant {Q : UserInput → Prop}
    (hoption : ∀ (c : Option Char) (p : UserInput) (args : List Word)
      (next : UserInput × List Word), Q p → parseOption c p args = some next → Q next.1)
    {args : List Word} {p q : UserInput} (hp : Q p) (h : parseArgs p args = some q) : Q q := by
  revert hp
  refine @parseArgs_induction (fun p _ q => Q p → Q q) (fun _ hp => hp) ?_ args p q h
  intro p w ws next q _ hnext ih hp
  exact ih (hoption _ _ _ _ hp hnext)

/-- The profile that the function leaves, when the default of the family keeps it, too. -/
theorem parseUserInput_invariant {Q : UserInput → Prop}
    (hoption : ∀ (c : Option Char) (p : UserInput) (args : List Word)
      (next : UserInput × List Word), Q p → parseOption c p args = some next → Q next.1)
    (hpdp : ∀ p, Q p → Q { p with pdp := 1 }) (hipv4 : ∀ p, Q p → Q { p with enableIpv4 := true })
    {argv : List Word} {p q : UserInput} (hp : Q p) (h : parseUserInput argv p = some q) : Q q := by
  obtain ⟨r, hr, rfl⟩ := Option.map_eq_some_iff.1 h
  have hread := parseArgs_invariant hoption (hpdp p hp) hr
  rw [defaultFamily]
  split
  · exact hipv4 r hread
  · exact hread

/-- Whatever the command line is, the strings that are read from it do not begin with `-`. -/
theorem parseUserInput_plain {argv : List Word} {p q : UserInput} (hp : p.Plain)
    (h : parseUserInput argv p = some q) : q.Plain :=
  @parseUserInput_invariant UserInput.Plain (fun _ _ _ _ hp hnext => parseOption_plain hp hnext)
    (fun _ hp => ⟨hp.apn, hp.user, hp.password⟩) (fun _ hp => ⟨hp.apn, hp.user, hp.password⟩)
    argv p q hp h

theorem UserInput.init_plain : UserInput.init.Plain where
  apn := by intro w hw; cases hw
  user := by intro w hw; cases hw
  password := by intro w hw; cases hw

/-! ### The strings come together -/

/-- The three strings of the `-s` option are there together. -/
structure UserInput.Together (p : UserInput) : Prop where
  user : p.user.isSome = p.apn.isSome
  password : p.password.isSome = p.apn.isSome

/-- Behind `-s` all three are there. -/
structure UserInput.Complete (p : UserInput) : Prop where
  apn : p.apn.isSome = true
  user : p.user.isSome = true
  password : p.password.isSome = true

theorem parseS_complete {p : UserInput} {args : List Word} {next : UserInput × List Word}
    (h : parseS p args = some next) : next.1.Complete :=
  parseS_invariant (Q := UserInput.Complete) ⟨rfl, rfl, rfl⟩
    (fun _ _ _ hp => ⟨⟨rfl, hp.user, hp.password⟩, ⟨hp.apn, rfl, hp.password⟩,
      ⟨hp.apn, hp.user, rfl⟩⟩)
    (fun _ _ hp => ⟨hp.apn, hp.user, hp.password⟩) h

theorem parseOption_together {c : Option Char} {p : UserInput} (hp : p.Together)
    {args : List Word} {next : UserInput × List Word} (h : parseOption c p args = some next) :
    next.1.Together := by
  rcases parseOption_strings h with hs | hsame
  · have hall := parseS_complete hs
    exact ⟨hall.user.trans hall.apn.symm, hall.password.trans hall.apn.symm⟩
  · refine ⟨?_, ?_⟩
    · rw [hsame.user, hsame.apn]
      exact hp.user
    · rw [hsame.password, hsame.apn]
      exact hp.password

/-- Whatever the command line is, either all three strings are there at the end or none. -/
theorem parseUserInput_together {argv : List Word} {p : UserInput}
    (h : parseUserInput argv .init = some p) : p.Together :=
  @parseUserInput_invariant UserInput.Together
    (fun _ _ _ _ hp hnext => parseOption_together hp hnext) (fun _ hp => ⟨hp.user, hp.password⟩)
    (fun _ hp => ⟨hp.user, hp.password⟩) argv .init p ⟨rfl, rfl⟩ h

/-! ### The last value of an option -/

/-- The words that are read: the name of the program and a trailing `&` are left out. -/
def wordsOf (argv : List Word) : List Word :=
  (if argv.getLast? = some ['&'] then argv.dropLast else argv).tail

/-- The value of the option `-x`, when the option is `c`. -/
def optionValue (x : Char) (c : Option Char) (args : List Word) : Option Word :=
  if c = some x then (moreArgv args).map Prod.fst else none

/-- The value behind the last `-x` that has one. -/
def lastValue (x : Char) : List Word → Option Word
  | [] => none
  | w :: ws =>
      (lastValue x ws).or (if isOption w then optionValue x w.tail.head? ws else none)

theorem lastValue_cons {w : Word} (h : isOption w = true) (x : Char) (ws : List Word) :
    lastValue x (w :: ws) = (lastValue x ws).or (optionValue x w.tail.head? ws) := by
  rw [lastValue, if_pos h]

theorem lastValue_of_takes {args rest : List Word} (h : Takes args rest) (x : Char) :
    lastValue x args = lastValue x rest := by
  obtain ⟨vs, rfl, hvs⟩ := h
  induction vs with
  | nil => rfl
  | cons v vs ih =>
      have hv : ¬ isOption v = true := by
        rw [hvs v (List.mem_cons_self ..)]
        exact Bool.false_ne_true
      rw [List.cons_append, lastValue, if_neg hv, Option.or_none]
      exact ih fun u hu => hvs u (List.mem_cons_of_mem _ hu)

/-- What an option leaves in a field that only `-x` stores. -/
def StoredBy (x : Char) (field : UserInput → ℤ) (read : Word → ℤ) : Prop :=
  ∀ (c : Option Char) (p : UserInput) (args : List Word) (next : UserInput × List Word),
    parseOption c p args = some next →
      field next.1 = ((optionValue x c args).map read).getD (field p)

/-- A field that only `-x` stores has the last value of `-x` in the end. -/
theorem StoredBy.parseArgs {x : Char} {field : UserInput → ℤ} {read : Word → ℤ}
    (hfield : StoredBy x field read) {args : List Word} {p q : UserInput}
    (h : parseArgs p args = some q) :
    field q = ((lastValue x args).map read).getD (field p) := by
  refine @parseArgs_induction
    (fun p args q => field q = ((lastValue x args).map read).getD (field p)) (fun _ => rfl) ?_
    args p q h
  intro p w ws next q hw hnext ih
  rw [ih, hfield _ _ _ _ hnext, lastValue_cons hw, lastValue_of_takes (parseOption_takes hnext) x]
  cases lastValue x next.2 with
  | none => rfl
  | some v => rfl

theorem takeValue_stores {field : UserInput → ℤ} {read : Word → ℤ}
    {store : Word → UserInput → UserInput} (hstore : ∀ w p, field (store w p) = read w)
    (x : Char) (p : UserInput) (args : List Word) :
    field (takeValue store p args).1 =
      ((optionValue x (some x) args).map read).getD (field p) := by
  rw [takeValue, optionValue, if_pos rfl]
  cases hmore : moreArgv args with
  | none => rfl
  | some next => exact hstore next.1 p

theorem optionValue_of_ne {x : Char} {c : Option Char} (h : c ≠ some x) (args : List Word) :
    optionValue x c args = none := if_neg h

/-- The numbers that select a connection are as before. -/
structure UserInput.SameIds (p q : UserInput) : Prop where
  pdp : q.pdp = p.pdp
  muxid : q.muxid = p.muxid

theorem parseS_ids {p : UserInput} {args : List Word} {next : UserInput × List Word}
    (h : parseS p args = some next) : p.SameIds next.1 :=
  parseS_invariant (Q := p.SameIds) ⟨rfl, rfl⟩
    (fun _ _ _ hq => ⟨⟨hq.pdp, hq.muxid⟩, ⟨hq.pdp, hq.muxid⟩, ⟨hq.pdp, hq.muxid⟩⟩)
    (fun _ _ hq => ⟨hq.pdp, hq.muxid⟩) h

theorem parseP_ids {p : UserInput} {args : List Word} {next : UserInput × List Word}
    (h : parseP p args = some next) : p.SameIds next.1 := by
  obtain ⟨⟨proxy, pincode, hnext⟩, -⟩ := parseP_cases h
  rw [hnext]
  exact ⟨rfl, rfl⟩

/-- Only `-m` and `-n` store these numbers. -/
theorem parseOption_ids {c : Option Char} {p : UserInput} {args : List Word}
    {next : UserInput × List Word} (hm : c ≠ some 'm') (hn : c ≠ some 'n')
    (h : parseOption c p args = some next) : p.SameIds next.1 := by
  unfold parseOption at h
  split at h
  case h_1 => exact parseS_ids h
  case h_2 => exact parseP_ids h
  case h_3 => exact absurd rfl hm
  case h_4 => exact absurd rfl hn
  all_goals first
    | (cases h
       exact @takeValue_invariant p.SameIds _ _ (fun _ _ => ⟨rfl, rfl⟩) ⟨rfl, rfl⟩ args)
    | (cases h; exact ⟨rfl, rfl⟩)
    | cases h

theorem storedBy_n : StoredBy 'n' UserInput.pdp firstDigit := by
  intro c p args next h
  by_cases hn : c = some 'n'
  · subst hn
    cases h
    exact @takeValue_stores UserInput.pdp firstDigit _ (fun _ _ => rfl) 'n' p args
  · rw [optionValue_of_ne hn]
    by_cases hm : c = some 'm'
    · subst hm
      cases h
      exact @takeValue_invariant (fun q => q.pdp = p.pdp) _ _ (fun _ _ => rfl) rfl args
    · exact (parseOption_ids hm hn h).pdp

theorem storedBy_m : StoredBy 'm' UserInput.muxid fun w => firstDigit w + 0x80 := by
  intro c p args next h
  by_cases hm : c = some 'm'
  · subst hm
    cases h
    exact @takeValue_stores UserInput.muxid (fun w => firstDigit w + 0x80) _ (fun _ _ => rfl) 'm'
      p args
  · rw [optionValue_of_ne hm]
    by_cases hn : c = some 'n'
    · subst hn
      cases h
      exact @takeValue_invariant (fun q => q.muxid = p.muxid) _ _ (fun _ _ => rfl) rfl args
    · exact (parseOption_ids hm hn h).muxid

theorem defaultFamily_ids (p : UserInput) : p.SameIds (defaultFamily p) := by
  rw [defaultFamily]
  split
  · exact ⟨rfl, rfl⟩
  · exact ⟨rfl, rfl⟩

/-- **The two numbers of an accepted command line**: the PDN is the last value of `-n`, or 1, and
the multiplexer identifier comes from the last value of `-m`, if there is one. -/
theorem parseUserInput_ids {argv : List Word} {p : UserInput}
    (h : parseUserInput argv .init = some p) :
    p.pdp = ((lastValue 'n' (wordsOf argv)).map firstDigit).getD 1 ∧
      p.muxid = ((lastValue 'm' (wordsOf argv)).map fun w => firstDigit w + 0x80).getD 0 := by
  obtain ⟨q, hq, rfl⟩ := Option.map_eq_some_iff.1 h
  have hids := defaultFamily_ids q
  exact ⟨hids.pdp.trans (storedBy_n.parseArgs hq), hids.muxid.trans (storedBy_m.parseArgs hq)⟩

end QuectelCM

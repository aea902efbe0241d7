/-
**From the web page to the profile of the call.**

The page of `luci-app-hypermodem` writes a `service` section, `run_dial` of its init script turns
the section into a command line of quectel-CM, and `parse_user_input` reads that back.  The script
asks for the option `user`, which the page does not write, and appends `$username`, which it never
sets: the words behind `-s` stand for other things than they were written for.

* `Hypermodem.ServicePage`, `Hypermodem.ServicePage.section` — what the page writes;
* `Hypermodem.runDial` — the command line;
* `Hypermodem.Reaches` — the profile is what the page says;
* `Hypermodem.runDial_reaches_iff` — **the sections that reach the modem**.
-/
import OpenwrtPackage.QuectelCM.UserInput

set_option relaxedAutoImplicit false
set_option autoImplicit false

namespace Hypermodem

open QuectelCM

/-! ### The page and its section -/

/-- The values of the option `auth`. -/
inductive AuthType where
  | none
  | both
  | pap
  | chap
  deriving DecidableEq, Repr

/-- The value as it is written. -/
def AuthType.word : AuthType → Word
  | .none => "none".toList
  | .both => "both".toList
  | .pap => "pap".toList
  | .chap => "chap".toList

/-- The number that `profile->auth` has for a type: bit 0 is PAP and bit 1 is CHAP. -/
def AuthType.number : AuthType → ℤ
  | .none => 0
  | .pap => 1
  | .chap => 2
  | .both => 3

theorem AuthType.number_inj {a b : AuthType} (h : a.number = b.number) : a = b := by
  cases a <;> cases b <;> first | rfl | exact absurd h (by decide)

/-- What the user enters on the page. -/
structure ServicePage where
  enabled : Bool
  ipv6 : Bool
  networkBridge : Bool
  device : Word
  apn : Word
  auth : AuthType
  username : Word
  password : Word

/-- A section of a configuration: the values of its options. -/
abbrev UciSection := List (String × Word)

/-- The value of a `Flag`. -/
def flag (b : Bool) : Word := if b then ['1'] else ['0']

/-- An option with `rmempty`: an empty value is not written. -/
def rmempty (option : String) (value : Word) : UciSection :=
  if value = [] then [] else [(option, value)]

/-- The section that the page writes. -/
def ServicePage.section (page : ServicePage) : UciSection :=
  [("enabled", flag page.enabled), ("ipv6", flag page.ipv6),
    ("network_bridge", flag page.networkBridge), ("device", page.device)] ++
  rmempty "apn" page.apn ++ [("auth", page.auth.word)] ++
  rmempty "username" page.username ++ rmempty "password" page.password

/-! ### The script -/

/-- `config_get`: an option that is not there is empty. -/
def configGet (s : UciSection) (option : String) : Word := (s.lookup option).getD []

/-- `config_get_bool` -/
def configGetBool (s : UciSection) (option : String) : Word :=
  let value := configGet s option
  if ["1".toList, "on".toList, "true".toList, "yes".toList, "enabled".toList].contains value then
    ['1']
  else if
      ["0".toList, "off".toList, "false".toList, "no".toList, "disabled".toList].contains value then
    ['0']
  else []

/-- The shell variables that `run_dial` sets with `config_get`, each from the option of its name.
Any other variable is not set. -/
def dialVar (s : UciSection) (name : String) : Word :=
  if name ∈ ["apn", "user", "password", "auth", "ipv6", "network_bridge", "device"] then
    configGet s name
  else []

/-- `run_dial`: the command that it opens an instance for, where `network` is what `ls` says of
the directory of the device. -/
def runDial (s : UciSection) (network : Word) : Option (List Word) :=
  if configGetBool s "enabled" = ['1'] then
    some (["quectel-CM".toList] ++
      (if dialVar s "ipv6" = ['1'] then ["-4".toList, "-6".toList] else []) ++
      (if dialVar s "network_bridge" = ['1'] then ["-b".toList] else []) ++
      (if dialVar s "apn" ≠ [] then ["-s".toList, dialVar s "apn"] else []) ++
      (if dialVar s "username" ≠ [] then [dialVar s "username"] else []) ++
      (if dialVar s "password" ≠ [] then [dialVar s "password"] else []) ++
      (if dialVar s "auth" ≠ [] then [dialVar s "auth"] else []) ++
      (if dialVar s "device" ≠ [] then ["-i".toList, network] else []))
  else none

/-! ### What should arrive, and when it does -/

/-- The profile is the one that the page describes; IPv4 is always asked for. -/
structure Reaches (page : ServicePage) (p : UserInput) : Prop where
  apn : p.apn.getD [] = page.apn
  user : p.user.getD [] = page.username
  password : p.password.getD [] = page.password
  auth : p.auth = page.auth.number
  ipv4 : p.enableIpv4 = true
  ipv6 : p.enableIpv6 = page.ipv6
  bridge : p.enableBridge = page.networkBridge

/-- The options that, without a value, change nothing of what the page says. -/
def OptionHarmless (page : ServicePage) (c : Option Char) : Prop :=
  c ∈ ['p', 'm', 'n', 'f', 'i', 'v', 'l', '4', 'u', 'k'].map some ∨
    c = some '6' ∧ page.ipv6 = true ∨ c = some 'b' ∧ page.networkBridge = true

/-- The network interface does no harm as the value of `-i`: it is no option, or one that changes
nothing of what the page says. -/
def AdapterHarmless (page : ServicePage) (network : Word) : Prop :=
  page.device = [] ∨ isOption network = false ∨ OptionHarmless page network.tail.head?

/-- The sections whose words mean by chance what they are taken for: user and password are the
word for the authentication type. -/
def WordsCoincide (page : ServicePage) : Prop :=
  page.auth = .none ∧ page.username = "none".toList ∧ page.password = [] ∨
    page.auth = .chap ∧ page.username = "chap".toList ∧ page.password = "chap".toList

/-! ### The command line of a page -/

theorem configGet_section (page : ServicePage) :
    configGet page.section "enabled" = flag page.enabled ∧
    configGet page.section "ipv6" = flag page.ipv6 ∧
    configGet page.section "network_bridge" = flag page.networkBridge ∧
    configGet page.section "device" = page.device ∧
    configGet page.section "apn" = page.apn ∧
    configGet page.section "auth" = page.auth.word ∧
    configGet page.section "password" = page.password := by
  by_cases hapn : page.apn = [] <;> by_cases huser : page.username = [] <;>
    by_cases hpassword : page.password = [] <;>
    simp [configGet, ServicePage.section, rmempty, hapn, huser, hpassword, List.lookup_cons]

/-- The words for the flags. -/
def flagWords (ipv6 bridge : Bool) : List Word :=
  (if ipv6 then ["-4".toList, "-6".toList] else []) ++ (if bridge then ["-b".toList] else [])

/-- A word that is only there when it is not empty. -/
def optWord (w : Word) : List Word := if w = [] then [] else [w]

/-- The words for the device. -/
def deviceWords (device network : Word) : List Word :=
  if device = [] then [] else ["-i".toList, network]

theorem AuthType.word_ne_nil (a : AuthType) : a.word ≠ [] := by
  cases a <;> decide

theorem AuthType.isOption_word (a : AuthType) : isOption a.word = false := by
  cases a <;> decide

/-- The command line that is opened for a page. -/
theorem runDial_section {page : ServicePage} {network : Word} {argv : List Word}
    (h : runDial page.section network = some argv) :
    argv = "quectel-CM".toList :: (flagWords page.ipv6 page.networkBridge ++
      (if page.apn = [] then [] else ["-s".toList, page.apn]) ++ optWord page.password ++
      page.auth.word :: deviceWords page.device network) := by
  obtain ⟨-, hipv6, hbridge, hdevice, hapn, hauth, hpassword⟩ := configGet_section page
  have hvars : dialVar page.section "ipv6" = flag page.ipv6 ∧
      dialVar page.section "network_bridge" = flag page.networkBridge ∧
      dialVar page.section "device" = page.device ∧ dialVar page.section "apn" = page.apn ∧
      dialVar page.section "auth" = page.auth.word ∧
      dialVar page.section "password" = page.password ∧
      dialVar page.section "username" = [] := by
    simp [dialVar, hipv6, hbridge, hdevice, hapn, hauth, hpassword]
  obtain ⟨h6, hb, hd, ha, hau, hp, hu⟩ := hvars
  have hflag : ∀ b : Bool, (flag b = ['1']) ↔ b = true := by decide
  rw [runDial] at h
  split at h
  · have h := Option.some.inj h
    rw [h6, hb, hd, ha, hau, hp, hu] at h
    rw [← h]
    simp [hflag, flagWords, optWord, deviceWords, page.auth.word_ne_nil, ite_not]
  · cases h

/-! ### Reading it back -/

/-- The words for the device as they are read: a last word `&` is not. -/
def readWords (device network : Word) : List Word :=
  if device = [] then [] else if network = ['&'] then ["-i".toList] else ["-i".toList, network]

theorem AuthType.word_ne_amp (a : AuthType) : a.word ≠ ['&'] := by
  cases a <;> decide

theorem parseUserInput_deviceWords (front : List Word) (a : AuthType) (device network : Word)
    (p : UserInput) :
    parseUserInput ("quectel-CM".toList :: (front ++ a.word :: deviceWords device network)) p =
      (parseArgs { p with pdp := 1 } (front ++ a.word :: readWords device network)).map
        defaultFamily := by
  by_cases hdevice : device = []
  · have hlast : ("quectel-CM".toList :: (front ++ [a.word])).getLast? = some a.word := by
      rw [← List.cons_append, List.getLast?_concat]
    rw [deviceWords, readWords, if_pos hdevice, if_pos hdevice, parseUserInput, hlast,
      if_neg fun h => a.word_ne_amp (Option.some.inj h)]
    rfl
  · have hsplit : "quectel-CM".toList :: (front ++ a.word :: ["-i".toList, network]) =
        ("quectel-CM".toList :: (front ++ a.word :: ["-i".toList])) ++ [network] := by simp
    rw [deviceWords, readWords, if_neg hdevice, if_neg hdevice, parseUserInput, hsplit,
      List.getLast?_concat]
    by_cases hamp : network = ['&']
    · rw [if_pos (congrArg some hamp), if_pos hamp, List.dropLast_concat]
      rfl
    · rw [if_neg fun h => hamp (Option.some.inj h), if_neg hamp, ← hsplit]
      rfl

/-- The profile behind the flags. -/
def flagged (ipv6 bridge : Bool) : UserInput :=
  { UserInput.init with
    pdp := 1
    enableIpv4 := ipv6
    enableIpv6 := ipv6
    enableBridge := bridge }

theorem parseArgs_flagWords (ipv6 bridge : Bool) (rest : List Word) :
    parseArgs { UserInput.init with pdp := 1 } (flagWords ipv6 bridge ++ rest) =
      parseArgs (flagged ipv6 bridge) rest := by
  have hfour : isOption "-4".toList = true := by decide
  have hsix : isOption "-6".toList = true := by decide
  have hb : isOption "-b".toList = true := by decide
  cases ipv6 <;> cases bridge
  · rfl
  · exact parseArgs_cons hb _ _
  · exact (parseArgs_cons hfour _ _).trans (parseArgs_cons hsix _ _)
  · exact (parseArgs_cons hfour _ _).trans
      ((parseArgs_cons hsix _ _).trans (parseArgs_cons hb _ _))

/-- Behind the words of `-s` there is an option or nothing. -/
theorem moreArgv_readWords (device network : Word) :
    moreArgv (readWords device network) = none := by
  have hi : isOption "-i".toList = true := by decide
  rw [readWords]
  split
  · rfl
  · split
    · exact moreArgv_option hi _
    · exact moreArgv_option hi _

theorem takeValue_readWords (store : Word → UserInput → UserInput) (p : UserInput)
    (device network : Word) :
    takeValue store p (readWords device network) = (p, readWords device network) := by
  rw [takeValue, moreArgv_readWords]

/-- Without a password the word for the authentication type is read as the user. -/
theorem parseS_no_password {apn : Word} (hapn : isOption apn = false) (a : AuthType)
    (p : UserInput) (device network : Word) :
    parseS p (apn :: a.word :: readWords device network) =
      some ({ p with apn := some apn, user := some a.word, password := some [] },
        readWords device network) := by
  rw [parseS]
  simp only [takeValue_value hapn, takeValue_value a.isOption_word, takeValue_readWords,
    moreArgv_readWords]
  rfl

/-- With a password the password is read as the user, and the word for the authentication type as
the password. -/
theorem parseS_password {apn password : Word} (hapn : isOption apn = false)
    (hpassword : isOption password = false) (a : AuthType) (p : UserInput)
    (device network : Word) :
    parseS p (apn :: password :: a.word :: readWords device network) =
      some ({ p with
          apn := some apn
          user := some password
          password := some a.word
          auth := 2 }, readWords device network) := by
  rw [parseS]
  simp only [takeValue_value hapn, takeValue_value hpassword, takeValue_value a.isOption_word,
    moreArgv_readWords, storeUser, storePassword, if_neg a.word_ne_nil]

/-! ### The words for the device -/

theorem defaultFamily_ipv4 {p : UserInput} {ipv6 : Bool} (h4 : ipv6 = true → p.enableIpv4 = true)
    (h6 : p.enableIpv6 = ipv6) : (defaultFamily p).enableIpv4 = true := by
  rw [defaultFamily]
  split
  · rfl
  · rename_i h
    cases ipv6 with
    | true => exact h4 rfl
    | false =>
        cases hfour : p.enableIpv4 with
        | true => rfl
        | false => exact absurd ⟨hfour, h6⟩ h

@[simp] theorem defaultFamily_apn (p : UserInput) : (defaultFamily p).apn = p.apn := by
  rw [defaultFamily]; split <;> rfl

@[simp] theorem defaultFamily_user (p : UserInput) : (defaultFamily p).user = p.user := by
  rw [defaultFamily]; split <;> rfl

@[simp] theorem defaultFamily_password (p : UserInput) :
    (defaultFamily p).password = p.password := by
  rw [defaultFamily]; split <;> rfl

@[simp] theorem defaultFamily_auth (p : UserInput) : (defaultFamily p).auth = p.auth := by
  rw [defaultFamily]; split <;> rfl

@[simp] theorem defaultFamily_enableIpv6 (p : UserInput) :
    (defaultFamily p).enableIpv6 = p.enableIpv6 := by
  rw [defaultFamily]; split <;> rfl

@[simp] theorem defaultFamily_enableBridge (p : UserInput) :
    (defaultFamily p).enableBridge = p.enableBridge := by
  rw [defaultFamily]; split <;> rfl

/-- The profile has the words of the page. -/
def HasWords (page : ServicePage) (p : UserInput) : Prop :=
  p.apn.getD [] = page.apn ∧ p.user.getD [] = page.username ∧
    p.password.getD [] = page.password ∧ p.auth = page.auth.number

theorem reaches_defaultFamily_iff {page : ServicePage} {p : UserInput}
    (h4 : page.ipv6 = true → p.enableIpv4 = true) :
    Reaches page (defaultFamily p) ↔
      HasWords page p ∧ p.enableIpv6 = page.ipv6 ∧ p.enableBridge = page.networkBridge := by
  constructor
  · intro h
    refine ⟨⟨?_, ?_, ?_, ?_⟩, ?_, ?_⟩
    · simpa using h.apn
    · simpa using h.user
    · simpa using h.password
    · simpa using h.auth
    · simpa using h.ipv6
    · simpa using h.bridge
  · rintro ⟨⟨hapn, huser, hpassword, hauth⟩, h6, hbridge⟩
    exact ⟨by simpa using hapn, by simpa using huser, by simpa using hpassword,
      by simpa using hauth, defaultFamily_ipv4 h4 h6, by simpa using h6, by simpa using hbridge⟩

/-- The profile holds the flags of the page, and may get words. -/
structure HasFlags (page : ServicePage) (p : UserInput) : Prop where
  ipv4 : p.enableIpv4 = page.ipv6
  ipv6 : p.enableIpv6 = page.ipv6
  bridge : p.enableBridge = page.networkBridge

theorem HasFlags.reaches_iff {page : ServicePage} {p : UserInput} (h : HasFlags page p) :
    Reaches page (defaultFamily p) ↔ HasWords page p := by
  rw [reaches_defaultFamily_iff fun h6 => h.ipv4.trans h6]
  exact ⟨fun hp => hp.1, fun hp => ⟨hp, h.ipv6, h.bridge⟩⟩

/-- A step that leaves the words alone, and the flags when it is harmless. -/
theorem exists_reaches_flags_iff {page : ServicePage} {p q : UserInput} {harmless : Prop}
    (h4 : page.ipv6 = true → q.enableIpv4 = true) (hwords : HasWords page q ↔ HasWords page p)
    (hflags : q.enableIpv6 = page.ipv6 ∧ q.enableBridge = page.networkBridge ↔ harmless) :
    (∃ r, some q = some r ∧ Reaches page (defaultFamily r)) ↔ HasWords page p ∧ harmless := by
  rw [← hwords, ← hflags, ← reaches_defaultFamily_iff h4]
  constructor
  · rintro ⟨r, hr, hreach⟩
    cases hr
    exact hreach
  · intro hreach
    exact ⟨q, rfl, hreach⟩

/-- A step that leaves the words and the flags alone. -/
theorem HasFlags.exists_reaches_iff {page : ServicePage} {p q : UserInput} {harmless : Prop}
    (hq : HasFlags page q) (hwords : HasWords page q ↔ HasWords page p) (h : harmless) :
    (∃ r, some q = some r ∧ Reaches page (defaultFamily r)) ↔ HasWords page p ∧ harmless :=
  exists_reaches_flags_iff (fun h6 => hq.ipv4.trans h6) hwords
    (iff_of_true ⟨hq.ipv6, hq.bridge⟩ h)

theorem optionHarmless_six (page : ServicePage) :
    OptionHarmless page (some '6') ↔ page.ipv6 = true := by
  constructor
  · rintro (hc | ⟨-, h6⟩ | ⟨hc, -⟩)
    · exact absurd hc (by decide)
    · exact h6
    · exact absurd hc (by decide)
  · intro h6
    exact Or.inr (Or.inl ⟨rfl, h6⟩)

theorem optionHarmless_b (page : ServicePage) :
    OptionHarmless page (some 'b') ↔ page.networkBridge = true := by
  constructor
  · rintro (hc | ⟨hc, -⟩ | ⟨-, hb⟩)
    · exact absurd hc (by decide)
    · exact absurd hc (by decide)
    · exact hb
  · intro hb
    exact Or.inr (Or.inr ⟨rfl, hb⟩)

theorem parseArgs_last {w : Word} (h : isOption w = true) (p : UserInput) :
    parseArgs p [w] = (parseOption w.tail.head? p []).map Prod.fst := by
  rw [parseArgs_cons h]
  cases hnext : parseOption w.tail.head? p [] with
  | none => rfl
  | some next =>
      obtain hnil : next.2 = [] :=
        List.length_eq_zero_iff.1 (Nat.le_zero.1 (parseOption_length hnext))
      rw [Option.bind_some, hnil, parseArgs_nil]
      rfl

/-- A last option without a value. -/
theorem parseOption_last_iff {page : ServicePage} {p : UserInput} (hp : HasFlags page p)
    (hapn : page.apn ≠ []) (c : Option Char) :
    (∃ q, (parseOption c p []).map Prod.fst = some q ∧ Reaches page (defaultFamily q)) ↔
      HasWords page p ∧ OptionHarmless page c := by
  unfold parseOption
  split
  case h_1 =>
    -- `-s` forgets the words
    refine iff_of_false ?_ fun h => absurd h.2 (by simp [OptionHarmless])
    rintro ⟨q, hq, hreach⟩
    cases hq
    have hforgotten := hreach.apn
    rw [defaultFamily_apn] at hforgotten
    exact hapn hforgotten.symm
  case h_9 =>
    -- `-4`
    exact exists_reaches_flags_iff (fun _ => rfl) Iff.rfl
      (iff_of_true ⟨hp.ipv6, hp.bridge⟩ (Or.inl (by decide)))
  case h_10 =>
    -- `-6`
    refine exists_reaches_flags_iff (fun h6 => hp.ipv4.trans h6) Iff.rfl ?_
    rw [optionHarmless_six]
    exact ⟨fun h => h.1.symm, fun h6 => ⟨h6.symm, hp.bridge⟩⟩
  case h_12 =>
    -- `-b`
    refine exists_reaches_flags_iff (fun h6 => hp.ipv4.trans h6) Iff.rfl ?_
    rw [optionHarmless_b]
    exact ⟨fun h => h.2.symm, fun hb => ⟨hp.ipv6, hb.symm⟩⟩
  case h_14 =>
    -- `usage`
    refine iff_of_false (by rintro ⟨q, hq, -⟩; cases hq) ?_
    rintro ⟨-, hc | ⟨rfl, -⟩ | ⟨rfl, -⟩⟩
    · simp only [List.map_cons, List.map_nil, List.mem_cons, List.not_mem_nil, or_false] at hc
      rcases hc with rfl | rfl | rfl | rfl | rfl | rfl | rfl | rfl | rfl | rfl <;> contradiction
    · contradiction
    · contradiction
  all_goals
    exact HasFlags.exists_reaches_iff ⟨hp.ipv4, hp.ipv6, hp.bridge⟩ Iff.rfl (Or.inl (by decide))

/-- The words for the device leave the rest of the profile alone when they are harmless. -/
theorem readWords_iff {page : ServicePage} {p : UserInput} (hp : HasFlags page p)
    (hapn : page.apn ≠ []) (network : Word) :
    (∃ q, parseArgs p (readWords page.device network) = some q ∧ Reaches page (defaultFamily q)) ↔
      HasWords page p ∧ AdapterHarmless page network := by
  have hi : isOption "-i".toList = true := by decide
  by_cases hdevice : page.device = []
  · rw [readWords, if_pos hdevice, parseArgs_nil]
    exact hp.exists_reaches_iff Iff.rfl (Or.inl hdevice)
  rw [readWords, if_neg hdevice]
  by_cases hamp : network = ['&']
  · have hvalue : isOption network = false := by rw [hamp]; decide
    rw [if_pos hamp, parseArgs_last hi]
    exact hp.exists_reaches_iff Iff.rfl (Or.inr (Or.inl hvalue))
  rw [if_neg hamp, parseArgs_cons hi]
  -- A network name that begins with `-` is not taken as the value of `-i` but read as an option
  -- of its own, the last one of the command line.
  cases hdash : isOption network with
  | false =>
      have htake : takeValue (fun w p => { p with expectAdapter := w.take 31 }) p [network] =
          ({ p with expectAdapter := network.take 31 }, []) := takeValue_value hdash _ _ _
      show (∃ q, (some (takeValue (fun w p => { p with expectAdapter := w.take 31 }) p
        [network])).bind (fun next => parseArgs next.1 next.2) = some q ∧ _) ↔ _
      rw [htake, Option.bind_some, parseArgs_nil]
      exact HasFlags.exists_reaches_iff ⟨hp.ipv4, hp.ipv6, hp.bridge⟩ Iff.rfl
        (Or.inr (Or.inl hdash))
  | true =>
      have htake : takeValue (fun w p => { p with expectAdapter := w.take 31 }) p [network] =
          (p, [network]) := takeValue_option hdash _ _ _
      show (∃ q, (some (takeValue (fun w p => { p with expectAdapter := w.take 31 }) p
        [network])).bind (fun next => parseArgs next.1 next.2) = some q ∧ _) ↔ _
      rw [htake, Option.bind_some, parseArgs_last hdash, parseOption_last_iff hp hapn,
        AdapterHarmless, hdash]
      simp [hdevice]

/-! ### The words behind the flags -/

theorem flagged_hasFlags (page : ServicePage) {apn user password : Word} {auth : ℤ} :
    HasFlags page { flagged page.ipv6 page.networkBridge with
      apn := some apn, user := some user, password := some password, auth := auth } :=
  ⟨rfl, rfl, rfl⟩

/-- With an APN, the words behind it arrive exactly when they coincide. -/
theorem parseArgs_words_iff {page : ServicePage} (hapn : page.apn ≠ [])
    (hplain : isOption page.apn = false) (hpassword : isOption page.password = false)
    (network : Word) :
    (∃ q, parseArgs (flagged page.ipv6 page.networkBridge)
        ("-s".toList :: page.apn :: (optWord page.password ++
          page.auth.word :: readWords page.device network)) = some q ∧
      Reaches page (defaultFamily q)) ↔ WordsCoincide page ∧ AdapterHarmless page network := by
  have hs : isOption "-s".toList = true := by decide
  rw [parseArgs_cons hs]
  -- `-s` takes its values in the order APN, user, password, auth. The script leaves out the user,
  -- so the words arrive one place too early, and without a password two places.
  by_cases hempty : page.password = []
  · have hread := parseS_no_password hplain page.auth (flagged page.ipv6 page.networkBridge)
      page.device network
    rw [optWord, if_pos hempty, List.nil_append]
    show (∃ q, (parseS _ _).bind (fun next => parseArgs next.1 next.2) = some q ∧ _) ↔ _
    rw [hread, Option.bind_some, readWords_iff (flagged_hasFlags page) hapn]
    refine and_congr_left fun _ => ?_
    constructor
    · rintro ⟨-, huser, -, hauth⟩
      have hnone : page.auth = .none := (@AuthType.number_inj .none page.auth hauth).symm
      refine Or.inl ⟨hnone, ?_, hempty⟩
      rw [← huser, hnone]
      rfl
    · rintro (⟨hauth, huser, -⟩ | ⟨-, -, hchap⟩)
      · exact ⟨rfl, by rw [hauth, huser]; rfl, hempty.symm, by rw [hauth]; rfl⟩
      · exact absurd (hempty.symm.trans hchap) (by decide)
  · have hread := parseS_password hplain hpassword page.auth
      (flagged page.ipv6 page.networkBridge) page.device network
    rw [optWord, if_neg hempty, List.singleton_append]
    show (∃ q, (parseS _ _).bind (fun next => parseArgs next.1 next.2) = some q ∧ _) ↔ _
    rw [hread, Option.bind_some, readWords_iff (flagged_hasFlags page) hapn]
    refine and_congr_left fun _ => ?_
    constructor
    · rintro ⟨-, huser, hword, hauth⟩
      have hchap : page.auth = .chap := (@AuthType.number_inj .chap page.auth hauth).symm
      have hword : page.password = "chap".toList := by
        rw [← hword, hchap]
        rfl
      exact Or.inr ⟨hchap, huser.symm.trans hword, hword⟩
    · rintro (⟨-, -, hnone⟩ | ⟨hauth, huser, hword⟩)
      · exact absurd hnone hempty
      · exact ⟨rfl, hword.trans huser.symm, by rw [hauth, hword]; rfl, by rw [hauth]; rfl⟩

/-- Without an APN the next word stands where an option should. -/
theorem parseArgs_no_apn {page : ServicePage} (hpassword : isOption page.password = false)
    (p : UserInput) (network : Word) :
    parseArgs p (optWord page.password ++ page.auth.word :: readWords page.device network) =
      none := by
  rw [optWord]
  split
  · exact parseArgs_value page.auth.isOption_word _ _
  · exact parseArgs_value hpassword _ _

/-- A section reaches the modem exactly when its APN is there and does not begin with `-`, user
and password are the word for its authentication type, and the interface does no harm. -/
theorem runDial_reaches_iff (page : ServicePage) (network : Word) (argv : List Word)
    (h : runDial page.section network = some argv) :
    (∃ p, parseUserInput argv .init = some p ∧ Reaches page p) ↔
      page.apn ≠ [] ∧ isOption page.apn = false ∧ WordsCoincide page ∧
        AdapterHarmless page network := by
  -- a value that begins with `-` never arrives
  have hplain : ∀ p, parseUserInput argv .init = some p → Reaches page p →
      isOption page.apn = false ∧ isOption page.password = false := by
    intro p hp hreach
    have hq := parseUserInput_plain UserInput.init_plain hp
    have hgetD : ∀ (o : Option Word), (∀ w ∈ o, isOption w = false) →
        isOption (o.getD []) = false := by
      intro o ho
      cases o with
      | none => rfl
      | some w => exact ho w rfl
    exact ⟨hreach.apn ▸ hgetD _ hq.apn, hreach.password ▸ hgetD _ hq.password⟩
  have hcoincide : WordsCoincide page → isOption page.password = false := by
    rintro (⟨-, -, hpw⟩ | ⟨-, -, hpw⟩)
    · rw [hpw]; rfl
    · rw [hpw]; rfl
  have hparse : parseUserInput argv .init = (parseArgs (flagged page.ipv6 page.networkBridge)
      ((if page.apn = [] then [] else ["-s".toList, page.apn]) ++ (optWord page.password ++
        page.auth.word :: readWords page.device network))).map defaultFamily := by
    rw [runDial_section h, parseUserInput_deviceWords, List.append_assoc, List.append_assoc,
      parseArgs_flagWords]
  have hmap : (∃ p, parseUserInput argv .init = some p ∧ Reaches page p) ↔
      ∃ q, parseArgs (flagged page.ipv6 page.networkBridge)
        ((if page.apn = [] then [] else ["-s".toList, page.apn]) ++ (optWord page.password ++
          page.auth.word :: readWords page.device network)) = some q ∧
        Reaches page (defaultFamily q) := by
    rw [hparse]
    constructor
    · rintro ⟨p, hp, hreach⟩
      obtain ⟨q, hq, rfl⟩ := Option.map_eq_some_iff.1 hp
      exact ⟨q, hq, hreach⟩
    · rintro ⟨q, hq, hreach⟩
      exact ⟨_, Option.map_eq_some_iff.2 ⟨q, hq, rfl⟩, hreach⟩
  constructor
  · rintro ⟨p, hp, hreach⟩
    obtain ⟨hapn, hpassword⟩ := hplain p hp hreach
    obtain ⟨q, hq, hreach⟩ := hmap.1 ⟨p, hp, hreach⟩
    by_cases hempty : page.apn = []
    · rw [if_pos hempty, List.nil_append, parseArgs_no_apn hpassword] at hq
      cases hq
    · rw [if_neg hempty] at hq
      exact ⟨hempty, hapn, (parseArgs_words_iff hempty hapn hpassword network).1 ⟨q, hq, hreach⟩⟩
  · rintro ⟨hempty, hapn, hwords, hharmless⟩
    have harrive := (parseArgs_words_iff hempty hapn (hcoincide hwords) network).2
      ⟨hwords, hharmless⟩
    rw [hmap, if_neg hempty]
    exact harrive

/-- The page of a user who dials with PAP. -/
def papPage : ServicePage where
  enabled := true
  ipv6 := true
  networkBridge := false
  device := "/dev/cdc-wdm0".toList
  apn := "3gnet".toList
  auth := .pap
  username := "carl".toList
  password := "1234".toList

theorem runDial_reaches_pap :
    (∃ p, parseUserInput ["quectel-CM".toList, "-4".toList, "-6".toList, "-s".toList,
        "3gnet".toList, "1234".toList, "pap".toList, "-i".toList, "wwan0".toList] .init = some p ∧
      Reaches papPage p) ↔
      papPage.apn ≠ [] ∧ isOption papPage.apn = false ∧ WordsCoincide papPage ∧
        AdapterHarmless papPage "wwan0".toList :=
  runDial_reaches_iff papPage "wwan0".toList _ (by decide +kernel)

/-- The password of that user is sent as the user name, and `pap` as the password. -/
theorem runDial_shifts_password :
    ¬ ∀ (page : ServicePage) (network : Word) (argv : List Word),
      runDial page.section network = some argv →
        ∃ p, parseUserInput argv .init = some p ∧ Reaches page p := by
  intro hall
  obtain ⟨p, hp, hreach⟩ := hall papPage "wwan0".toList
    ["quectel-CM".toList, "-4".toList, "-6".toList, "-s".toList, "3gnet".toList, "1234".toList,
      "pap".toList, "-i".toList, "wwan0".toList] (by decide +kernel)
  have huser : (parseUserInput ["quectel-CM".toList, "-4".toList, "-6".toList, "-s".toList,
      "3gnet".toList, "1234".toList, "pap".toList, "-i".toList, "wwan0".toList] .init).map
      (fun p => p.user.getD []) = some "1234".toList := by decide +kernel
  rw [hp, Option.map_some, hreach.user] at huser
  exact absurd huser (by decide)

end Hypermodem

/-
**Radios that are found.**

On each start the router looks at its radios, and writes a section `radioN` for each one that no
section of the configuration stands for.  A section knows its radio by the path of its device, by
its address or by the name that the board gives to it; the numbers go on from the sections that are
there.

* `Mac80211.detect` — `detect_mac80211`, for a board, the radios of one start and a configuration;
* `Mac80211.Compact` — the counter is behind all numbers that are in use;
* `Mac80211.detect_eq` — a start puts new sections behind the ones that are there;
* `Mac80211.starts_prefix` — **no start changes what has been configured, or gives a name twice**;
* `Mac80211.Lasting` — the section that a radio gets knows it again;
* `Mac80211.detect_stable` — **radios that have been found are not found again**, whatever has been
  plugged in between.
-/
import OpenwrtPackage.Lib.Expansion
import OpenwrtPackage.Lib.Keyed
import OpenwrtPackage.Lib.Scan
import OpenwrtPackage.Lib.UciBatch

set_option relaxedAutoImplicit false
set_option autoImplicit false

namespace Mac80211

open CScan Expansion UciBatch

/-! ### The board and its radios -/

/-- An object of `wlan` in `board.json`; the path is empty when it has none. -/
structure Entry where
  name : Word
  path : Word

/-- The name of a variable, in which `jshn.sh` keeps what has a name. -/
def mangle (name : Word) : Word := name.map fun c => if c.isAlphanum || c = '_' then c else '_'

/-- `board.json`.  All objects have variables of their own. -/
structure Board where
  wlan : List Entry
  named : ∀ e ∈ wlan, e.name ≠ []
  nodup : (wlan.map fun e => mangle e.name).Nodup

/-- `json_is_a "$name" object`, and `json_select "$name"`. -/
def Board.entry (b : Board) (name : Word) : Option Entry :=
  b.wlan.find? fun e => mangle e.name = mangle name

/-- What a start finds: the names in `/sys/class/ieee80211`, in their order, and what `iwinfo`, the
files there and `__get_band_defaults` say of each; the bands come with a channel and a mode.  The
last one is the random part of the network's name. -/
structure System where
  phys : List Word
  path : Word → Word
  macaddress : Word → Word
  bands : Word → List (Word × Word × Word)
  randomSsid : Word

/-! ### The functions -/

def radioName (n : ℕ) : Word := "radio".toList ++ dec n

def defaultName (n : ℕ) : Word := "default_radio".toList ++ dec n

/-- The digits behind `radio`, when there is nothing else. -/
def radioDigits (name : Word) : Option Word :=
  if "radio".toList.isPrefixOf name then
    let ds := name.drop 5
    if ds ≠ [] ∧ ds.all (isDigit 10) then some ds else none
  else none

/-- `$((idx))`: with a zero in front, the digits are octal. -/
def arith (ds : Word) : ℕ := if ds.head? = some '0' then value 8 ds else value 10 ds

/-- `check_devidx` -/
def checkDevidx (devidx : ℕ) (name : Word) : ℕ :=
  match radioDigits name with
  | none => devidx
  | some ds => if value 10 ds ≤ devidx then arith ds + 1 else devidx

/-- The sections that `config_foreach` goes through. -/
def devices (cfg : List Section) : List Section :=
  cfg.filter fun s => s.type = "wifi-device".toList

def devidx (cfg : List Section) : ℕ :=
  ((devices cfg).map Section.name).foldl checkDevidx 0

/-- `mode_band`, `channel` and `htmode`. -/
structure Defaults where
  band : Word
  channel : Word
  htmode : Word

def bandName (band : Word) : Word :=
  if band = ['1'] then "2g".toList
  else if band = ['2'] then "5g".toList
  else if band = ['3'] then "60g".toList
  else if band = ['4'] then "6g".toList
  else []

/-- `get_band_defaults` -/
def getBandDefaults : List (Word × Word × Word) → Defaults → Defaults
  | [], d => d
  | (band, chan, mode) :: words, d =>
      if bandName band = [] then getBandDefaults words d
      else if d.band ≠ [] ∧ bandName band = "6g".toList then d
      else getBandDefaults words ⟨bandName band, chan, mode⟩

/-- `check_board_phy`, with `board_dev` and `fallback_board_dev`. -/
def checkBoardPhy (path : Word) (found : Word × Word) (e : Entry) : Word × Word :=
  if path = e.path then (e.name, found.2)
  else if beforeLast '+' path = e.path then (found.1, e.name ++ '.' :: afterFirst '+' path)
  else found

/-- `$dev`, once the board has been asked. -/
def deviceName (b : Board) (dev path : Word) : Word :=
  let found := b.wlan.foldl (checkBoardPhy path) ([], [])
  let boardDev := if found.1 = [] then found.2 else found.1
  if boardDev = [] then dev else boardDev

/-- The pattern `phy*`. -/
def isPhy (name : Word) : Bool := "phy".toList.isPrefixOf name

/-- The path of what the board calls `phy`; empty when it does not know it. -/
def boardPath (b : Board) (phy : Word) : Word :=
  match b.entry phy with
  | some e => e.path
  | none =>
      match b.entry (beforeLast '.' phy) with
      | some e => e.path ++ '+' :: afterLast '.' phy
      | none => []

/-- `check_mac80211_device`: a section stands for a radio. -/
def checkMac80211Device (b : Board) (sys : System) (dev path macaddr : Word) (s : Section) : Bool :=
  let phy := s.get "phy".toList
  let phyPath :=
    if phy = [] then []
    else if isPhy phy then if sys.phys.contains phy then sys.path dev else []
    else boardPath b phy
  let phyPath := if phyPath = [] then s.get "path".toList else phyPath
  (path ≠ [] && phyPath = path) || (macaddr ≠ [] && s.get "macaddr".toList = macaddr)

/-- `dev_id` -/
def devId (dev path macaddr : Word) : Word × Word :=
  if isPhy dev then
    if path ≠ [] then ("path".toList, path) else ("macaddr".toList, macaddr)
  else ("phy".toList, dev)

def radioOptions (dev path macaddr : Word) (d : Defaults) : List (Word × Word) :=
  [("type".toList, "mac80211".toList), devId dev path macaddr, ("channel".toList, d.channel),
    ("band".toList, d.band), ("htmode".toList, d.htmode), ("disabled".toList, "0".toList)]

def ifaceOptions (n : ℕ) (ssid : Word) : List (Word × Word) :=
  [("device".toList, radioName n), ("network".toList, "lan".toList), ("mode".toList, "ap".toList),
    ("ssid".toList, "OpenWrt-".toList ++ ssid), ("encryption".toList, "psk2".toList),
    ("key".toList, "password".toList)]

/-- The commands of the batch. -/
def radioCommands (n : ℕ) (dev path macaddr ssid : Word) (d : Defaults) : List Command :=
  (.create (radioName n) "wifi-device".toList ::
      setOptions (radioName n) (radioOptions dev path macaddr d)) ++
    (.create (defaultName n) "wifi-iface".toList ::
      setOptions (defaultName n) (ifaceOptions n ssid))

/-- One turn of the loop, with the configuration and `devidx`; `known` are the sections that have
been loaded. -/
def detectOne (b : Board) (sys : System) (known : List Section) (st : List Section × ℕ)
    (dev : Word) : List Section × ℕ :=
  let path := sys.path dev
  let macaddr := sys.macaddress dev
  if path = [] ∧ macaddr = [] then st
  else
    let d := getBandDefaults (sys.bands dev) ⟨[], [], []⟩
    let dev := deviceName b dev path
    if known.any (checkMac80211Device b sys dev path macaddr) then st
    else (batch (radioCommands st.2 dev path macaddr sys.randomSsid d) st.1, st.2 + 1)

/-- `detect_mac80211` -/
def detect (b : Board) (sys : System) (cfg : List Section) : List Section :=
  (sys.phys.foldl (detectOne b sys (devices cfg)) (cfg, devidx cfg)).1

/-- One start after the other, each with its board and what it finds. -/
def starts (cfg : List Section) (runs : List (Board × System)) : List Section :=
  runs.foldl (fun cfg run => detect run.1 run.2 cfg) cfg

/-! ### Numbers -/

/-- Only zero begins with a zero. -/
theorem eq_zero_of_head_dec {n : ℕ} (h : (dec n).head? = some '0') : n = 0 := by
  induction n using Nat.strongRecOn with
  | _ n ih =>
      rw [dec] at h
      by_cases hn : n < 10
      · rw [Nat.toDigits_of_lt_base hn, List.head?_cons, Option.some.injEq] at h
        have hval := digitVal_digitChar n (by omega)
        rw [h] at hval
        exact (Option.some.inj hval).symm
      · have hlt : n / 10 < n := Nat.div_lt_self (by omega) (by decide)
        have hne : Nat.toDigits 10 (n / 10) ≠ [] := Nat.toDigits_ne_nil
        rw [Nat.toDigits_of_base_le (by decide) (by omega), List.head?_append_of_ne_nil _ hne] at h
        have hzero := ih (n / 10) hlt h
        omega

theorem arith_dec (n : ℕ) : arith (dec n) = n := by
  rw [arith]
  split
  · next h =>
      rw [eq_zero_of_head_dec h]
      decide
  · exact value_toDigits (by decide) (by decide) n

theorem radioDigits_radioName (n : ℕ) : radioDigits (radioName n) = some (dec n) := by
  have hne : dec n ≠ [] := Nat.toDigits_ne_nil
  have hall : (dec n).all (isDigit 10) = true :=
    List.all_eq_true.2 (isDigit_of_mem_toDigits (by decide) (by decide) n)
  have hprefix : "radio".toList.isPrefixOf (radioName n) = true :=
    List.isPrefixOf_iff_prefix.2 (List.prefix_append _ _)
  have hdrop : (radioName n).drop 5 = dec n := rfl
  rw [radioDigits, if_pos hprefix, hdrop]
  exact if_pos ⟨hne, hall⟩

theorem radioName_inj {m n : ℕ} : radioName m = radioName n ↔ m = n := by
  constructor
  · intro h
    have hvalue := congrArg (value 10) (List.append_cancel_left h)
    rwa [dec, dec, value_toDigits (by decide) (by decide), value_toDigits (by decide) (by decide)]
      at hvalue
  · exact congrArg radioName

theorem defaultName_inj {m n : ℕ} : defaultName m = defaultName n ↔ m = n := by
  constructor
  · intro h
    have hvalue := congrArg (value 10) (List.append_cancel_left h)
    rwa [dec, dec, value_toDigits (by decide) (by decide), value_toDigits (by decide) (by decide)]
      at hvalue
  · exact congrArg defaultName

theorem radioName_ne_defaultName (m n : ℕ) : radioName m ≠ defaultName n := by
  intro h
  have hhead : some 'r' = some 'd' := congrArg List.head? h
  cases hhead

/-- The counter goes on behind the section with its number. -/
theorem checkDevidx_radioName (n : ℕ) : checkDevidx n (radioName n) = n + 1 := by
  have hvalue : value 10 (dec n) = n := value_toDigits (by decide) (by decide) n
  rw [checkDevidx, radioDigits_radioName]
  simp only [hvalue, arith_dec, Nat.le_refl, if_true]

/-! ### New sections -/

/-- The section of a radio. -/
def radioSection (n : ℕ) (dev path macaddr : Word) (d : Defaults) : Section :=
  ⟨radioName n, "wifi-device".toList, optionsOf (radioOptions dev path macaddr d)⟩

/-- The section of its network. -/
def ifaceSection (n : ℕ) (ssid : Word) : Section :=
  ⟨defaultName n, "wifi-iface".toList, optionsOf (ifaceOptions n ssid)⟩

/-- The batch puts two new sections behind the others. -/
theorem batch_radioCommands {cfg : List Section} {n : ℕ}
    (hradio : radioName n ∉ cfg.map Section.name) (hdefault : defaultName n ∉ cfg.map Section.name)
    (dev path macaddr ssid : Word) (d : Defaults) :
    batch (radioCommands n dev path macaddr ssid d) cfg =
      cfg ++ [radioSection n dev path macaddr d, ifaceSection n ssid] := by
  have hfirst := batch_create hradio "wifi-device".toList (radioOptions dev path macaddr d)
  have hnot : defaultName n ∉ (cfg ++ [radioSection n dev path macaddr d]).map Section.name := by
    rw [List.map_append, List.mem_append, not_or]
    refine ⟨hdefault, ?_⟩
    intro h
    exact radioName_ne_defaultName n n (List.mem_singleton.1 h).symm
  have hsecond := batch_create hnot "wifi-iface".toList (ifaceOptions n ssid)
  rw [radioSection] at hsecond
  rw [radioCommands, batch, List.foldl_append]
  rw [batch] at hfirst hsecond
  rw [hfirst, hsecond, List.append_assoc]
  rfl

/-! ### One start -/

/-- The counter is behind all numbers that are in use. -/
def Compact (cfg : List Section) : Prop :=
  ∀ s ∈ cfg, ∀ n, s.name = radioName n ∨ s.name = defaultName n → n < devidx cfg

/-- A configuration that has grown: what was there is in front, the counter is behind all numbers,
and names that were different still are. -/
structure Grown (cfg cfg' : List Section) : Prop where
  front : cfg <+: cfg'
  compact : Compact cfg'
  nodup : (cfg.map Section.name).Nodup → (cfg'.map Section.name).Nodup

theorem Grown.trans {cfg₁ cfg₂ cfg₃ : List Section} (h : Grown cfg₁ cfg₂) (h' : Grown cfg₂ cfg₃) :
    Grown cfg₁ cfg₃ :=
  ⟨h.front.trans h'.front, h'.compact, fun hn => h'.nodup (h.nodup hn)⟩

section New

variable {cfg : List Section} (h : Compact cfg) (dev path macaddr ssid : Word) (d : Defaults)

include h in
theorem Compact.radioName_not_mem : radioName (devidx cfg) ∉ cfg.map Section.name := by
  intro hmem
  obtain ⟨s, hs, hname⟩ := List.mem_map.1 hmem
  exact Nat.lt_irrefl _ (h s hs _ (Or.inl hname))

include h in
theorem Compact.defaultName_not_mem : defaultName (devidx cfg) ∉ cfg.map Section.name := by
  intro hmem
  obtain ⟨s, hs, hname⟩ := List.mem_map.1 hmem
  exact Nat.lt_irrefl _ (h s hs _ (Or.inr hname))

/-- With the new sections, the counter has gone on by one. -/
theorem devidx_append_new :
    devidx (cfg ++ [radioSection (devidx cfg) dev path macaddr d,
      ifaceSection (devidx cfg) ssid]) = devidx cfg + 1 := by
  have hdevices : devices [radioSection (devidx cfg) dev path macaddr d,
      ifaceSection (devidx cfg) ssid] = [radioSection (devidx cfg) dev path macaddr d] := by
    simp [devices, radioSection, ifaceSection]
  have hnext := checkDevidx_radioName (devidx cfg)
  rw [devidx, devices, List.filter_append, ← devices, ← devices, hdevices, List.map_append,
    List.foldl_append]
  exact hnext

include h in
theorem Compact.grown :
    Grown cfg (cfg ++ [radioSection (devidx cfg) dev path macaddr d,
      ifaceSection (devidx cfg) ssid]) := by
  refine ⟨List.prefix_append _ _, ?_, ?_⟩
  · intro s hs n hname
    rw [devidx_append_new]
    rcases List.mem_append.1 hs with hs | hs
    · exact Nat.lt_succ_of_lt (h s hs n hname)
    · simp only [List.mem_cons, List.not_mem_nil, or_false] at hs
      rcases hs with rfl | rfl
      · rcases hname with hname | hname
        · rw [← radioName_inj.1 hname]
          exact Nat.lt_succ_self _
        · exact absurd hname (radioName_ne_defaultName _ _)
      · rcases hname with hname | hname
        · exact absurd hname.symm (radioName_ne_defaultName _ _)
        · rw [← defaultName_inj.1 hname]
          exact Nat.lt_succ_self _
  · intro hn
    rw [List.map_append, List.nodup_append]
    refine ⟨hn, ?_, ?_⟩
    · simp [radioSection, ifaceSection, radioName_ne_defaultName]
    · rintro name hname other hother rfl
      simp only [List.map_cons, List.map_nil, List.mem_cons, List.not_mem_nil, or_false] at hother
      rcases hother with rfl | rfl
      · exact h.radioName_not_mem hname
      · exact h.defaultName_not_mem hname

end New

/-- A radio that gets no section: it says nothing of itself, or a section stands for it. -/
def isFound (b : Board) (sys : System) (known : List Section) (dev : Word) : Bool :=
  (sys.path dev = [] && sys.macaddress dev = []) ||
    known.any (checkMac80211Device b sys (deviceName b dev (sys.path dev)) (sys.path dev)
      (sys.macaddress dev))

/-- What stands for a radio stands for it among more. -/
theorem isFound_mono {b : Board} {sys : System} {known known' : List Section} {dev : Word}
    (hsub : known ⊆ known') (h : isFound b sys known dev = true) :
    isFound b sys known' dev = true := by
  rw [isFound, Bool.or_eq_true] at h ⊢
  rcases h with h | h
  · exact Or.inl h
  · obtain ⟨s, hs, hcheck⟩ := List.any_eq_true.1 h
    exact Or.inr (List.any_eq_true.2 ⟨s, hsub hs, hcheck⟩)

/-- The section that a radio gets. -/
def sectionOf (b : Board) (sys : System) (n : ℕ) (dev : Word) : Section :=
  radioSection n (deviceName b dev (sys.path dev)) (sys.path dev) (sys.macaddress dev)
    (getBandDefaults (sys.bands dev) ⟨[], [], []⟩)

theorem detectOne_of_found {b : Board} {sys : System} {known : List Section} {dev : Word}
    (h : isFound b sys known dev = true) (st : List Section × ℕ) :
    detectOne b sys known st dev = st := by
  rw [isFound, Bool.or_eq_true, Bool.and_eq_true, decide_eq_true_iff, decide_eq_true_iff] at h
  rw [detectOne]
  rcases h with h | h
  · exact if_pos h
  · simp only [h, if_true, ite_self]

/-- A start at which all are found changes nothing. -/
theorem detect_of_found {b : Board} {sys : System} {cfg : List Section}
    (h : ∀ dev ∈ sys.phys, isFound b sys (devices cfg) dev = true) : detect b sys cfg = cfg := by
  have hloop : ∀ phys : List Word, (∀ dev ∈ phys, isFound b sys (devices cfg) dev = true) →
      ∀ st, phys.foldl (detectOne b sys (devices cfg)) st = st := by
    intro phys hphys
    induction phys with
    | nil => exact fun _ => rfl
    | cons dev phys ih =>
        intro st
        obtain ⟨hdev, hrest⟩ := List.forall_mem_cons.1 hphys
        rw [List.foldl_cons, detectOne_of_found hdev]
        exact ih hrest st
  rw [detect, hloop sys.phys h]

theorem detectOne_of_not_found {b : Board} {sys : System} {known : List Section} {dev : Word}
    (h : isFound b sys known dev = false) {cfg : List Section} (hcompact : Compact cfg) :
    detectOne b sys known (cfg, devidx cfg) dev =
      (cfg ++ [sectionOf b sys (devidx cfg) dev, ifaceSection (devidx cfg) sys.randomSsid],
        devidx cfg + 1) := by
  rw [isFound, Bool.or_eq_false_iff] at h
  have hsome : ¬ (sys.path dev = [] ∧ sys.macaddress dev = []) := by
    simpa using h.1
  have hbatch := batch_radioCommands hcompact.radioName_not_mem hcompact.defaultName_not_mem
    (deviceName b dev (sys.path dev)) (sys.path dev) (sys.macaddress dev) sys.randomSsid
    (getBandDefaults (sys.bands dev) ⟨[], [], []⟩)
  simp only [detectOne, if_neg hsome, h.2, Bool.false_eq_true, if_false, hbatch]
  rfl

/-- **One start**: the configuration grows, and each radio that no section stands for gets one. -/
theorem detectOne_loop {b : Board} {sys : System} {known : List Section} (phys : List Word)
    {cfg : List Section} (h : Compact cfg) :
    ∃ cfg', phys.foldl (detectOne b sys known) (cfg, devidx cfg) = (cfg', devidx cfg') ∧
      Grown cfg cfg' ∧
        ∀ dev ∈ phys, isFound b sys known dev = true ∨ ∃ n, sectionOf b sys n dev ∈ cfg' := by
  induction phys generalizing cfg with
  | nil =>
      exact ⟨cfg, rfl, ⟨List.prefix_refl _, h, id⟩, fun _ h => absurd h List.not_mem_nil⟩
  | cons dev phys ih =>
      rw [List.foldl_cons]
      cases hfound : isFound b sys known dev with
      | true =>
          rw [detectOne_of_found hfound]
          obtain ⟨cfg', heq, hgrown, hall⟩ := ih h
          exact ⟨cfg', heq, hgrown, List.forall_mem_cons.2 ⟨Or.inl hfound, hall⟩⟩
      | false =>
          have hnew := h.grown (deviceName b dev (sys.path dev)) (sys.path dev)
            (sys.macaddress dev) sys.randomSsid (getBandDefaults (sys.bands dev) ⟨[], [], []⟩)
          have hnext := @devidx_append_new cfg (deviceName b dev (sys.path dev)) (sys.path dev)
            (sys.macaddress dev) sys.randomSsid (getBandDefaults (sys.bands dev) ⟨[], [], []⟩)
          rw [detectOne_of_not_found hfound h, sectionOf, ← hnext]
          obtain ⟨cfg', heq, hgrown, hall⟩ := ih hnew.compact
          refine ⟨cfg', heq, hnew.trans hgrown, ?_⟩
          refine List.forall_mem_cons.2 ⟨Or.inr ⟨devidx cfg, ?_⟩, hall⟩
          exact hgrown.front.subset (List.mem_append_right _ List.mem_cons_self)

theorem detect_eq (b : Board) (sys : System) {cfg : List Section} (h : Compact cfg) :
    Grown cfg (detect b sys cfg) ∧ ∀ dev ∈ sys.phys, isFound b sys (devices cfg) dev = true ∨
      ∃ n, sectionOf b sys n dev ∈ detect b sys cfg := by
  obtain ⟨cfg', heq, hgrown, hall⟩ := @detectOne_loop b sys (devices cfg) sys.phys cfg h
  rw [detect, heq]
  exact ⟨hgrown, hall⟩

theorem starts_grown {cfg : List Section} (h : Compact cfg) (runs : List (Board × System)) :
    Grown cfg (starts cfg runs) := by
  induction runs generalizing cfg with
  | nil => exact ⟨List.prefix_refl _, h, id⟩
  | cons run runs ih =>
      have hfirst := (detect_eq run.1 run.2 h).1
      rw [starts, List.foldl_cons]
      exact hfirst.trans (ih hfirst.compact)

/-- **No start changes what has been configured, and no name is given twice**: what was there stays
in front, and the names are different, when they have been. -/
theorem starts_prefix {cfg : List Section} (h : Compact cfg)
    (hnodup : (cfg.map Section.name).Nodup) (runs : List (Board × System)) :
    cfg <+: starts cfg runs ∧ ((starts cfg runs).map Section.name).Nodup :=
  ⟨(starts_grown h runs).front, (starts_grown h runs).nodup hnodup⟩

theorem compact_nil : Compact [] := fun _ h => absurd h List.not_mem_nil

/-- A board with one device, and its two radios. -/
def twoRadioBoard : Board where
  wlan := [⟨"wl0".toList, "platform/soc/wifi".toList⟩]
  named := by
    intro e he
    rw [List.mem_singleton.1 he]
    decide
  nodup := List.nodup_singleton _

def twoRadios : System where
  phys := ["phy0".toList, "phy1".toList]
  path := fun dev =>
    if dev = "phy0".toList then "platform/soc/wifi".toList else "platform/soc/wifi+1".toList
  macaddress := fun _ => "00:11:22:33:44:55".toList
  bands := fun _ => [(['2'], "36".toList, "HE80".toList)]
  randomSsid := "3f2a1c".toList

theorem starts_prefix_two :
    [radioSection 0 "phy9".toList "pci/9".toList [] ⟨[], [], []⟩, ifaceSection 0 []] <+:
        starts [radioSection 0 "phy9".toList "pci/9".toList [] ⟨[], [], []⟩, ifaceSection 0 []]
          [(twoRadioBoard, twoRadios)] ∧
      ((starts [radioSection 0 "phy9".toList "pci/9".toList [] ⟨[], [], []⟩, ifaceSection 0 []]
        [(twoRadioBoard, twoRadios)]).map Section.name).Nodup := by
  have hone := compact_nil.grown "phy9".toList "pci/9".toList [] [] ⟨[], [], []⟩
  exact starts_prefix hone.compact (hone.nodup List.nodup_nil) [(twoRadioBoard, twoRadios)]

/-! ### What the board calls a radio -/

/-- The object with the path of the radio, and those with the path of the device that it is a part
of: the last one of each kind. -/
theorem foldl_checkBoardPhy (path : Word) (es : List Entry) (found : Word × Word) :
    es.foldl (checkBoardPhy path) found =
      (((es.filter fun e => path = e.path).getLast?.map Entry.name).getD found.1,
        ((es.filter fun e => path ≠ e.path ∧ beforeLast '+' path = e.path).getLast?.map
          fun e => e.name ++ '.' :: afterFirst '+' path).getD found.2) := by
  have hlast : ∀ (f : Entry → Word) (e : Entry) (l : List Entry) (w : Word),
      ((e :: l).getLast?.map f).getD w = (l.getLast?.map f).getD (f e) := by
    intro f e l w
    rw [List.getLast?_cons]
    cases l.getLast? with
    | none => rfl
    | some _ => rfl
  induction es generalizing found with
  | nil => rfl
  | cons e es ih =>
      rw [List.foldl_cons, ih, checkBoardPhy, List.filter_cons, List.filter_cons]
      by_cases hexact : path = e.path
      · simp [hexact, hlast]
      · by_cases hpart : beforeLast '+' path = e.path
        · simp [hexact, hpart, hlast]
        · simp [hexact, hpart]

theorem exists_getLast {α : Type*} {x : α} {l : List α} (h : x ∈ l) :
    ∃ y, l.getLast? = some y := by
  cases hl : l.getLast? with
  | none =>
      rw [List.getLast?_eq_none_iff.1 hl] at h
      cases h
  | some y => exact ⟨y, rfl⟩

/-- An object that has the path of the radio names it. -/
theorem deviceName_exact {b : Board} {path : Word} (h : ∃ e ∈ b.wlan, e.path = path)
    (dev : Word) : ∃ e ∈ b.wlan, e.path = path ∧ deviceName b dev path = e.name := by
  obtain ⟨e, he, hpath⟩ := h
  have hmem : e ∈ b.wlan.filter fun e => path = e.path :=
    List.mem_filter.2 ⟨he, by simpa using hpath.symm⟩
  obtain ⟨last, hlast⟩ := exists_getLast hmem
  obtain ⟨hwlan, hsame⟩ := List.mem_filter.1 (List.mem_of_getLast? hlast)
  have hpath' : path = last.path := of_decide_eq_true hsame
  refine ⟨last, hwlan, hpath'.symm, ?_⟩
  rw [deviceName, foldl_checkBoardPhy, hlast]
  simp only [Option.map_some, Option.getD_some, if_neg (b.named last hwlan)]

/-- Without one, an object names it that has the path of the device that it is a part of. -/
theorem deviceName_part {b : Board} {path : Word} (hnone : ∀ e ∈ b.wlan, e.path ≠ path)
    (h : ∃ e ∈ b.wlan, e.path = beforeLast '+' path) (dev : Word) :
    ∃ e ∈ b.wlan, e.path = beforeLast '+' path ∧
      deviceName b dev path = e.name ++ '.' :: afterFirst '+' path := by
  obtain ⟨e, he, hpath⟩ := h
  have hexact : (b.wlan.filter fun e => path = e.path) = [] :=
    List.filter_eq_nil_iff.2 fun e he => by simpa using (hnone e he).symm
  have hmem : e ∈ b.wlan.filter fun e => path ≠ e.path ∧ beforeLast '+' path = e.path :=
    List.mem_filter.2 ⟨he, by simpa using ⟨(hnone e he).symm, hpath.symm⟩⟩
  obtain ⟨last, hlast⟩ := exists_getLast hmem
  obtain ⟨hwlan, hsame⟩ := List.mem_filter.1 (List.mem_of_getLast? hlast)
  have hpath' : path ≠ last.path ∧ beforeLast '+' path = last.path := of_decide_eq_true hsame
  refine ⟨last, hwlan, hpath'.2.symm, ?_⟩
  rw [deviceName, foldl_checkBoardPhy, hexact, hlast]
  simp

/-- An object is found by its name. -/
theorem Board.entry_of_mem {b : Board} {e : Entry} (h : e ∈ b.wlan) : b.entry e.name = some e :=
  Keyed.find?_eq_of_mem b.nodup h

/-- Nothing is found by no name. -/
theorem boardPath_nil (b : Board) : boardPath b [] = [] := by
  have hnone : b.entry [] = none := by
    refine List.find?_eq_none.2 fun e he => ?_
    have hne : mangle e.name ≠ mangle [] := fun h => b.named e he (List.map_eq_nil_iff.1 h)
    simpa using hne
  have hnone' : b.entry (beforeLast '.' []) = none := hnone
  rw [boardPath, hnone, hnone']

/-! ### Radios that have been found -/

theorem devices_subset {cfg cfg' : List Section} (h : cfg <+: cfg') :
    devices cfg ⊆ devices cfg' := by
  intro s hs
  obtain ⟨hmem, htype⟩ := List.mem_filter.1 hs
  exact List.mem_filter.2 ⟨h.subset hmem, htype⟩

/-- The section that a radio gets knows it again: the board does not name the radio, or names it by
its path, or as a part of a device, when the path can be put together again from that name and no
object has the name itself. -/
inductive Lasting (b : Board) (dev path : Word) : Prop
  | phy (h : isPhy (deviceName b dev path) = true)
  | exact (hpath : path ≠ []) (h : ∃ e ∈ b.wlan, e.path = path)
  | part (hplus : path.count '+' = 1) (hdot : '.' ∉ afterFirst '+' path)
      (h : ∃ e ∈ b.wlan, e.path = beforeLast '+' path)
      (hfree : ∀ e ∈ b.wlan, b.entry (e.name ++ '.' :: afterFirst '+' path) = none)

/-- The board leads from the name back to the path. -/
theorem Lasting.boardPath_eq {b : Board} {dev path : Word} (h : Lasting b dev path)
    (hphy : isPhy (deviceName b dev path) = false) :
    path ≠ [] ∧ boardPath b (deviceName b dev path) = path := by
  have hexact : path ≠ [] → (∃ e ∈ b.wlan, e.path = path) →
      path ≠ [] ∧ boardPath b (deviceName b dev path) = path := by
    intro hne h
    obtain ⟨e, he, hpath, hname⟩ := deviceName_exact h dev
    refine ⟨hne, ?_⟩
    rw [boardPath, hname, Board.entry_of_mem he]
    exact hpath
  cases h with
  | phy h =>
      rw [h] at hphy
      cases hphy
  | exact hne h => exact hexact hne h
  | part hplus hdot h hfree =>
      have hne : path ≠ [] := by
        rintro rfl
        cases hplus
      by_cases hsame : ∃ e ∈ b.wlan, e.path = path
      · exact hexact hne hsame
      · have hnone : ∀ e ∈ b.wlan, e.path ≠ path := fun e he hpath => hsame ⟨e, he, hpath⟩
        obtain ⟨e, he, hpath, hname⟩ := deviceName_part hnone h dev
        refine ⟨hne, ?_⟩
        rw [boardPath, hname, hfree e he, beforeLast_append _ hdot, afterLast_append _ hdot,
          Board.entry_of_mem he]
        simp only [hpath]
        exact eq_of_once hplus

theorem get_radioSection (n : ℕ) (dev path macaddr : Word) (d : Defaults) :
    (radioSection n dev path macaddr d).get "phy".toList = (if isPhy dev then [] else dev) ∧
      (radioSection n dev path macaddr d).get "path".toList = (if isPhy dev then path else []) ∧
      (isPhy dev = true → path = [] →
        (radioSection n dev path macaddr d).get "macaddr".toList = macaddr) := by
  simp only [Section.get, radioSection, get_optionsOf, radioOptions, devId]
  cases hphy : isPhy dev with
  | false => exact ⟨rfl, rfl, fun h => by cases h⟩
  | true =>
      by_cases hpath : path = []
      · subst hpath
        exact ⟨rfl, rfl, fun _ _ => rfl⟩
      · simp only [if_true, if_pos hpath]
        exact ⟨rfl, rfl, fun _ h => absurd h hpath⟩

/-- **The section that a radio gets stands for it.** -/
theorem Lasting.check {b : Board} {dev path : Word} (h : Lasting b dev path) (sys : System)
    (n : ℕ) {macaddr : Word} (hsome : path ≠ [] ∨ macaddr ≠ []) (d : Defaults) :
    checkMac80211Device b sys (deviceName b dev path) path macaddr
      (radioSection n (deviceName b dev path) path macaddr d) = true := by
  obtain ⟨hgetphy, hgetpath, hgetmac⟩ := get_radioSection n (deviceName b dev path) path macaddr d
  have hboard := h.boardPath_eq
  generalize deviceName b dev path = name at hgetphy hgetpath hgetmac hboard ⊢
  rw [checkMac80211Device, hgetphy, hgetpath]
  cases hphy : isPhy name with
  | true =>
      by_cases hpath : path = []
      · have hmac := hsome.resolve_left (not_not_intro hpath)
        rw [hgetmac hphy hpath]
        simp [hmac, hpath]
      · simp [hpath]
  | false =>
      obtain ⟨hne, heq⟩ := hboard hphy
      have hname : name ≠ [] := by
        rintro rfl
        rw [boardPath_nil] at heq
        exact hne heq.symm
      simp [hphy, hname, heq, hne]

end Mac80211

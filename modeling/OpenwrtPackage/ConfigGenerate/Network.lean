/-
**The networks of a board.**

On its first start a router makes its network configuration from the description of the board.  A
static network without an address gets one: `lan` always the same, and each of the others the next
subnet of a counter.

* `ConfigGenerate.generateNetwork`, `ConfigGenerate.generateNetworks` — the commands for one network
  and for all of them;
* `ConfigGenerate.askOf` — what a network asks for, with `ConfigGenerate.generateNetwork_askOf` and
  `ConfigGenerate.defaultAddresses_eq` — the addresses are numbers from a counter and a fixed one;
* `ConfigGenerate.NoCollision` — the addresses are different, and are addresses;
* `ConfigGenerate.noCollision_iff` — **the boards without a collision**.
-/
import OpenwrtPackage.Lib.Numbering
import OpenwrtPackage.Lib.Scan

set_option relaxedAutoImplicit false
set_option autoImplicit false

namespace ConfigGenerate

open CScan Numbering

/-! ### The commands -/

abbrev Word := List Char

/-- An option of a section. -/
inductive UciOption where
  | name
  | type
  | macaddr
  | ports
  | device
  | vlan
  | metric
  | proto
  | ipaddr
  | netmask
  | ip6assign
  | username
  | password
  | ipv6
  | pdptype
  deriving DecidableEq

/-- A section of the package `network`. -/
inductive UciSection where
  | named (name : Word)
  /-- `@device[-1]` -/
  | lastDevice
  deriving DecidableEq

/-- A command of `uci`. -/
inductive UciCommand where
  | delete (name : Word)
  /-- `set network.name='type'` -/
  | create (name type : Word)
  /-- `add network device` -/
  | addDevice
  | set (sec : UciSection) (option : UciOption) (value : Word)
  | addList (sec : UciSection) (option : UciOption) (value : Word)
  deriving DecidableEq

/-- A network of the board description; what is not there is empty. -/
structure Network where
  device : Word
  macaddr : Word
  metric : Word
  protocol : Word
  ipaddr : Word
  netmask : Word
  vlan : Word
  ports : List Word

/-- The variables that are kept from one network to the next. -/
structure Counters where
  addrOffset : ℕ
  bridgeVlanId : ℕ

/-- `addr_offset=2` and `bridge_vlan_id=0` -/
def Counters.start : Counters := ⟨2, 0⟩

def lan : Word := ['l', 'a', 'n']

/-- `protocol` -/
def protoStatic : Word := ['s', 't', 'a', 't', 'i', 'c']

def protoDhcp : Word := ['d', 'h', 'c', 'p']

def protoPppoe : Word := ['p', 'p', 'p', 'o', 'e']

def protoNcm : Word := ['n', 'c', 'm']

def protoQmi : Word := ['q', 'm', 'i']

def protoMbim : Word := ['m', 'b', 'i', 'm']

/-- `set` of several options. -/
def setAll (sec : UciSection) (values : List (UciOption × Word)) : List UciCommand :=
  values.map fun v => .set sec v.1 v.2

/-- A device with a hardware address of its own. -/
def deviceMac (device macaddr : Word) : List UciCommand :=
  .addDevice :: setAll .lastDevice [(.name, device), (.macaddr, macaddr)]

/-- The bridge of a network. -/
def ownBridge (key : Word) (ports : List Word) (macaddr : Word) : List UciCommand :=
  .addDevice :: setAll .lastDevice [(.name, "br-".toList ++ key), (.type, "bridge".toList)] ++
    ports.map (.addList .lastDevice .ports) ++
    if macaddr ≠ [] then ports.flatMap fun port => deviceMac port macaddr else []

/-- Words with blanks between them. -/
def unwords (ws : List Word) : Word := (ws.intersperse [' ']).flatten

/-- `generate_bridge_vlan` -/
def generateBridgeVlan (key device : Word) (ports : List Word) (vlan : Word) : List UciCommand :=
  let name := key ++ "_vlan".toList
  .create name "bridge-vlan".toList ::
    setAll (.named name) [(.device, device), (.vlan, vlan), (.ports, unwords ports)]

/-- The alias that is configured with DHCPv6. -/
def ipv6Alias (key device : Word) : List UciCommand :=
  let name := key ++ ['6']
  [.delete name, .create name "interface".toList] ++
    setAll (.named name) [(.device, device), (.proto, "dhcpv6".toList)]

/-- `192.168.$n.1` -/
def subnet (n : ℕ) : Word := "192.168.".toList ++ (dec n ++ ".1".toList)

/-- `${value:-default}` -/
def orDefault (value default : Word) : Word := if value = [] then default else value

/-- `ipad`, and the counter behind it. -/
def staticAddress (addrOffset : ℕ) (key : Word) (n : Network) : ℕ × Word :=
  if key = lan then (addrOffset, orDefault n.ipaddr (subnet 10))
  else if n.ipaddr = [] then (addrOffset + 1, subnet addrOffset)
  else (addrOffset, n.ipaddr)

/-- `case "$protocol"`; `hasIpv6` says that `/proc/sys/net/ipv6` exists, and `type` is empty. -/
def protocolCommands (hasIpv6 : Bool) (addrOffset : ℕ) (key device : Word) (n : Network) :
    ℕ × List UciCommand :=
  if n.protocol = protoStatic then
    let r := staticAddress addrOffset key n
    (r.1, setAll (.named key) [(.proto, protoStatic), (.ipaddr, r.2),
        (.netmask, orDefault n.netmask "255.255.255.0".toList)] ++
      if hasIpv6 then setAll (.named key) [(.ip6assign, "60".toList)] else [])
  else if n.protocol = protoDhcp then
    (addrOffset, setAll (.named key) [(.proto, protoDhcp)] ++
      if hasIpv6 then ipv6Alias key device else [])
  else if n.protocol = protoPppoe then
    (addrOffset, setAll (.named key) [(.proto, protoPppoe), (.username, "username".toList),
        (.password, "password".toList)] ++
      if hasIpv6 then
        setAll (.named key) [(.ipv6, ['1'])] ++ ipv6Alias key ('@' :: key)
      else [])
  else if n.protocol = protoNcm ∨ n.protocol = protoQmi ∨ n.protocol = protoMbim then
    (addrOffset, setAll (.named key) [(.proto, n.protocol), (.pdptype, "ipv4".toList)])
  else (addrOffset, [])

/-- Where a network is: its device, the hardware address that is still to be set, and the counter
of the VLANs. -/
structure Place where
  device : Word
  macaddr : Word
  bridgeVlanId : ℕ
  commands : List UciCommand

/-- The bridges; `bridge` is empty when the board has none. -/
def placeOf (bridge : Word) (bridgeVlanId : ℕ) (key : Word) (n : Network) : Place :=
  -- Force bridge for "lan" as it may have other devices (e.g. wireless) bridged
  let ports := if key = lan ∧ n.ports = [] then [n.device] else n.ports
  if bridge = [] then
    if ports = [] then ⟨n.device, n.macaddr, bridgeVlanId, []⟩
    else ⟨"br-".toList ++ key, [], bridgeVlanId, ownBridge key ports n.macaddr⟩
  else
    let ports := if ports = [] then [n.device] else ports
    let bridgeVlanId := if n.vlan = [] then bridgeVlanId + 1 else bridgeVlanId
    let vlan := orDefault n.vlan (dec bridgeVlanId)
    ⟨bridge ++ '.' :: vlan, n.macaddr, bridgeVlanId, generateBridgeVlan key bridge ports vlan⟩

/-- `generate_network` -/
def generateNetwork (hasIpv6 : Bool) (bridge : Word) (c : Counters) (key : Word) (n : Network) :
    Counters × List UciCommand :=
  if n.device = [] ∧ n.ports = [] then (c, [])
  else
    let p := placeOf bridge c.bridgeVlanId key n
    let r := protocolCommands hasIpv6 c.addrOffset key p.device n
    (⟨r.1, p.bridgeVlanId⟩,
      p.commands ++ (if p.macaddr ≠ [] then deviceMac p.device p.macaddr else []) ++
        [.delete key, .create key "interface".toList] ++
        setAll (.named key) [(.type, []), (.device, p.device), (.metric, n.metric),
          (.proto, "none".toList)] ++ r.2)

/-- `for key in $keys; do generate_network $key $bridge_name; done`: the commands for each
network. -/
def generateNetworks (hasIpv6 : Bool) (bridge : Word) :
    Counters → List (Word × Network) → List (Network × List UciCommand)
  | _, [] => []
  | c, (key, n) :: ns =>
      let r := generateNetwork hasIpv6 bridge c key n
      (n, r.2) :: generateNetworks hasIpv6 bridge r.1 ns

/-- The networks of a board description; an object of JSON has each key once. -/
structure Board where
  networks : List (Word × Network)
  nodup : (networks.map Prod.fst).Nodup

/-! ### The addresses -/

/-- The address that a command assigns. -/
def UciCommand.address? : UciCommand → Option Word
  | .set _ .ipaddr value => some value
  | _ => none

/-- The addresses that are assigned to networks that give none. -/
def defaultAddresses (run : List (Network × List UciCommand)) : List Word :=
  (run.filter fun r => r.1.ipaddr = []).flatMap fun r => r.2.filterMap UciCommand.address?

/-- Four numbers of eight bits with dots between them. -/
def IsIpv4 (t : Word) : Prop :=
  ∃ a b c d : UInt8,
    t = dec a.toNat ++ '.' :: (dec b.toNat ++ '.' :: (dec c.toNat ++ '.' :: dec d.toNat))

/-- The addresses are different, and all of them are addresses. -/
structure NoCollision (hasIpv6 : Bool) (bridge : Word) (b : Board) : Prop where
  distinct : (defaultAddresses (generateNetworks hasIpv6 bridge .start b.networks)).Nodup
  valid : ∀ t ∈ defaultAddresses (generateNetworks hasIpv6 bridge .start b.networks), IsIpv4 t

/-- A static network that is somewhere and gives no address. -/
def TakesDefault (n : Network) : Prop :=
  ¬ (n.device = [] ∧ n.ports = []) ∧ n.protocol = protoStatic ∧ n.ipaddr = []

instance : DecidablePred TakesDefault := fun _ => inferInstanceAs (Decidable (_ ∧ _))

/-- What a network asks for. -/
def askOf (e : Word × Network) : Ask :=
  if TakesDefault e.2 then if e.1 = lan then .fixed 10 else .next else .nothing

/-- How many networks other than `lan` get an address of the counter. -/
def Board.others (b : Board) : ℕ := b.networks.countP fun e => TakesDefault e.2 ∧ e.1 ≠ lan

/-- `lan` is among the networks, and gives no address. -/
def Board.LanDefault (b : Board) : Prop := ∃ e ∈ b.networks, TakesDefault e.2 ∧ e.1 = lan

instance (b : Board) : Decidable b.LanDefault := inferInstanceAs (Decidable (∃ e ∈ _, _))

/-! ### Addresses as text -/

theorem dec_inj {m n : ℕ} : dec m = dec n ↔ m = n := by
  constructor
  · intro h
    have hvalue := congrArg (value 10) h
    rwa [dec, dec, value_toDigits (by decide) (by decide),
      value_toDigits (by decide) (by decide)] at hvalue
  · rintro rfl
    rfl

theorem dot_not_mem_dec (n : ℕ) : '.' ∉ dec n := by
  intro hmem
  have hdigit := isDigit_of_mem_toDigits (by decide) (by decide) n '.' hmem
  revert hdigit
  decide

/-- A text up to its first dot. -/
theorem append_dot_inj {u v s t : Word} (hu : '.' ∉ u) (hv : '.' ∉ v) :
    u ++ '.' :: s = v ++ '.' :: t ↔ u = v ∧ s = t := by
  induction u generalizing v with
  | nil =>
      cases v with
      | nil => simp
      | cons c v =>
          have hc : '.' ≠ c := List.ne_of_not_mem_cons hv
          simp [hc]
  | cons c u ih =>
      cases v with
      | nil =>
          have hc : c ≠ '.' := (List.ne_of_not_mem_cons hu).symm
          simp [hc]
      | cons d v =>
          have htail := ih (List.not_mem_of_not_mem_cons hu) (List.not_mem_of_not_mem_cons hv)
          rw [List.cons_append, List.cons_append, List.cons.injEq, List.cons.injEq, htail,
            and_assoc]

theorem dec_dot_inj {m n : ℕ} {s t : Word} :
    dec m ++ '.' :: s = dec n ++ '.' :: t ↔ m = n ∧ s = t := by
  rw [append_dot_inj (dot_not_mem_dec m) (dot_not_mem_dec n), dec_inj]

theorem subnet_eq (n : ℕ) :
    subnet n = dec 192 ++ '.' :: (dec 168 ++ '.' :: (dec n ++ '.' :: dec 1)) :=
  rfl

theorem subnet_injective : Function.Injective subnet := by
  intro m n h
  rw [subnet_eq, subnet_eq, dec_dot_inj, dec_dot_inj, dec_dot_inj] at h
  exact h.2.2.1

theorem isIpv4_subnet_iff (n : ℕ) : IsIpv4 (subnet n) ↔ n ≤ 255 := by
  rw [subnet_eq]
  constructor
  · rintro ⟨a, b, c, d, h⟩
    rw [dec_dot_inj, dec_dot_inj, dec_dot_inj] at h
    have hlt := c.toNat_lt
    omega
  · intro h
    have hn : (UInt8.ofNat n).toNat = n := by
      rw [UInt8.toNat_ofNat']
      omega
    exact ⟨192, 168, UInt8.ofNat n, 1, by rw [hn]; rfl⟩

/-! ### The addresses of a run -/

theorem addresses_setAll (sec : UciSection) (values : List (UciOption × Word)) :
    (setAll sec values).filterMap UciCommand.address? =
      values.filterMap fun v => if v.1 = .ipaddr then some v.2 else none := by
  rw [setAll, List.filterMap_map]
  refine List.filterMap_congr ?_
  rintro ⟨option, value⟩ -
  cases option <;> rfl

theorem addresses_deviceMac (device macaddr : Word) :
    (deviceMac device macaddr).filterMap UciCommand.address? = [] := rfl

theorem addresses_ownBridge (key : Word) (ports : List Word) (macaddr : Word) :
    (ownBridge key ports macaddr).filterMap UciCommand.address? = [] := by
  have hports : (ports.map (UciCommand.addList .lastDevice .ports)).filterMap
      UciCommand.address? = [] := by
    rw [List.filterMap_map]
    exact List.filterMap_eq_nil_iff.2 fun _ _ => rfl
  have hmacs : (ports.flatMap fun port => deviceMac port macaddr).filterMap
      UciCommand.address? = [] := by
    rw [List.filterMap_flatMap]
    exact List.flatMap_eq_nil_iff.2 fun port _ => addresses_deviceMac port macaddr
  rw [ownBridge, List.filterMap_append, List.filterMap_append, hports]
  split
  · rw [hmacs]
    rfl
  · rfl

/-- A place for a network has no address. -/
theorem addresses_placeOf (bridge : Word) (bridgeVlanId : ℕ) (key : Word) (n : Network) :
    (placeOf bridge bridgeVlanId key n).commands.filterMap UciCommand.address? = [] := by
  rw [placeOf]
  generalize (if key = lan ∧ n.ports = [] then [n.device] else n.ports) = ports
  split
  · split
    · rfl
    · exact addresses_ownBridge _ _ _
  · rfl

section Step

variable (hasIpv6 : Bool) (bridge : Word) (c : Counters) (key : Word) {n : Network}

/-- A static network has one address, and moves the counter when the address is from there. -/
theorem protocolCommands_static (h : n.protocol = protoStatic) (addrOffset : ℕ) (device : Word) :
    (protocolCommands hasIpv6 addrOffset key device n).1 = (staticAddress addrOffset key n).1 ∧
      (protocolCommands hasIpv6 addrOffset key device n).2.filterMap UciCommand.address? =
        [(staticAddress addrOffset key n).2] := by
  rw [protocolCommands, if_pos h]
  exact ⟨rfl, by cases hasIpv6 <;> rfl⟩

/-- The other protocols have none. -/
theorem protocolCommands_other (h : n.protocol ≠ protoStatic) (addrOffset : ℕ) (device : Word) :
    (protocolCommands hasIpv6 addrOffset key device n).1 = addrOffset ∧
      (protocolCommands hasIpv6 addrOffset key device n).2.filterMap UciCommand.address? = [] := by
  rw [protocolCommands, if_neg h]
  split
  · exact ⟨rfl, by cases hasIpv6 <;> rfl⟩
  · split
    · exact ⟨rfl, by cases hasIpv6 <;> rfl⟩
    · split
      · exact ⟨rfl, rfl⟩
      · exact ⟨rfl, rfl⟩

/-- What is done for the device of a network has no address, and does not move the counter. -/
theorem generateNetwork_placed (h : ¬ (n.device = [] ∧ n.ports = [])) :
    ∃ device,
      (generateNetwork hasIpv6 bridge c key n).1.addrOffset =
        (protocolCommands hasIpv6 c.addrOffset key device n).1 ∧
      (generateNetwork hasIpv6 bridge c key n).2.filterMap UciCommand.address? =
        (protocolCommands hasIpv6 c.addrOffset key device n).2.filterMap UciCommand.address? := by
  have hmac : ∀ p : Place,
      (if p.macaddr ≠ [] then deviceMac p.device p.macaddr else []).filterMap
        UciCommand.address? = [] := by
    intro p
    split <;> rfl
  refine ⟨(placeOf bridge c.bridgeVlanId key n).device, ?_⟩
  rw [generateNetwork, if_neg h]
  refine ⟨rfl, ?_⟩
  simp only [List.filterMap_append, addresses_placeOf, hmac, addresses_setAll]
  rfl

/-- An address that is given leaves the counter as it is. -/
theorem counter_staticAddress {n : Network} (h : n.ipaddr ≠ []) (addrOffset : ℕ) (key : Word) :
    (staticAddress addrOffset key n).1 = addrOffset := by
  rw [staticAddress, if_neg h]
  split <;> rfl

/-- **One network**: it moves the counter as it asks, and the address that it does not give is the
number that it gets. -/
theorem generateNetwork_askOf :
    (generateNetwork hasIpv6 bridge c key n).1.addrOffset =
        c.addrOffset + nexts [askOf (key, n)] ∧
      (n.ipaddr = [] →
        (generateNetwork hasIpv6 bridge c key n).2.filterMap UciCommand.address? =
          (numbers c.addrOffset [askOf (key, n)]).map subnet) := by
  rw [askOf]
  by_cases hnowhere : n.device = [] ∧ n.ports = []
  · rw [if_neg fun htakes : TakesDefault n => htakes.1 hnowhere, generateNetwork, if_pos hnowhere]
    exact ⟨rfl, fun _ => rfl⟩
  · obtain ⟨device, hoffset, haddresses⟩ := generateNetwork_placed hasIpv6 bridge c key hnowhere
    rw [hoffset, haddresses]
    by_cases hstatic : n.protocol = protoStatic
    · obtain ⟨hcounter, haddress⟩ :=
        protocolCommands_static hasIpv6 key hstatic c.addrOffset device
      rw [hcounter, haddress]
      by_cases hipaddr : n.ipaddr = []
      · rw [if_pos (show TakesDefault n from ⟨hnowhere, hstatic, hipaddr⟩), staticAddress,
          orDefault, if_pos hipaddr, if_pos hipaddr]
        split
        · exact ⟨rfl, fun _ => rfl⟩
        · exact ⟨rfl, fun _ => rfl⟩
      · rw [if_neg fun htakes : TakesDefault n => hipaddr htakes.2.2,
          counter_staticAddress hipaddr]
        exact ⟨rfl, fun hnone => absurd hnone hipaddr⟩
    · obtain ⟨hcounter, haddress⟩ :=
        protocolCommands_other hasIpv6 key hstatic c.addrOffset device
      rw [hcounter, haddress, if_neg fun htakes : TakesDefault n => hstatic htakes.2.1]
      exact ⟨rfl, fun _ => rfl⟩

end Step

/-- A network that gives an address asks for nothing. -/
theorem numbers_askOf_of_ne {key : Word} {n : Network} (h : n.ipaddr ≠ []) (k : ℕ) :
    numbers k [askOf (key, n)] = [] := by
  rw [askOf, if_neg fun htakes : TakesDefault n => h htakes.2.2]
  rfl

/-- **The addresses of all networks**, in their order. -/
theorem defaultAddresses_eq (hasIpv6 : Bool) (bridge : Word) (c : Counters)
    (ns : List (Word × Network)) :
    defaultAddresses (generateNetworks hasIpv6 bridge c ns) =
      (numbers c.addrOffset (ns.map askOf)).map subnet := by
  induction ns generalizing c with
  | nil => rfl
  | cons e ns ih =>
      obtain ⟨key, n⟩ := e
      have hrest := ih (generateNetwork hasIpv6 bridge c key n).1
      obtain ⟨hoffset, haddresses⟩ := @generateNetwork_askOf hasIpv6 bridge c key n
      rw [List.map_cons, numbers_cons, List.map_append, ← hoffset, ← hrest, generateNetworks,
        defaultAddresses, defaultAddresses, List.filter_cons]
      by_cases h : n.ipaddr = []
      · rw [if_pos (decide_eq_true h), List.flatMap_cons, haddresses h]
      · rw [if_neg (mt of_decide_eq_true h), numbers_askOf_of_ne h]
        rfl

/-! ### The boards without a collision -/

/-- How often `lan` asks for its own address. -/
def lanAsks (ns : List (Word × Network)) : ℕ := ns.countP fun e => TakesDefault e.2 ∧ e.1 = lan

theorem fixed_askOf (ns : List (Word × Network)) :
    (ns.map askOf).filterMap Ask.fixed? = List.replicate (lanAsks ns) 10 := by
  induction ns with
  | nil => rfl
  | cons e ns ih =>
      rw [List.map_cons, List.filterMap_cons, ih, lanAsks, lanAsks, List.countP_cons, askOf]
      by_cases htakes : TakesDefault e.2
      · by_cases hlan : e.1 = lan
        · simp [htakes, hlan, Ask.fixed?, List.replicate_succ]
        · simp [htakes, hlan, Ask.fixed?]
      · simp [htakes, Ask.fixed?]

theorem nexts_askOf (ns : List (Word × Network)) :
    nexts (ns.map askOf) = ns.countP fun e => TakesDefault e.2 ∧ e.1 ≠ lan := by
  rw [nexts, List.count, List.countP_map]
  refine List.countP_congr ?_
  intro e _
  rw [Function.comp_apply, askOf]
  by_cases htakes : TakesDefault e.2
  · by_cases hlan : e.1 = lan
    · simp [htakes, hlan]
    · simp [htakes, hlan]
  · simp [htakes]

/-- The keys are different, so that `lan` is there at most once. -/
theorem Board.lanAsks_le_one (b : Board) : lanAsks b.networks ≤ 1 := by
  have hcount : (b.networks.map Prod.fst).count lan ≤ 1 := List.nodup_iff_count_le_one.1 b.nodup lan
  rw [List.count, List.countP_map] at hcount
  refine le_trans (List.countP_mono_left ?_) hcount
  intro e _ h
  exact beq_iff_eq.2 (of_decide_eq_true h).2

theorem Board.lanDefault_iff (b : Board) : b.LanDefault ↔ 0 < lanAsks b.networks := by
  rw [lanAsks, List.countP_pos_iff]
  simp only [Board.LanDefault, decide_eq_true_eq]

/-- With `lan` among the networks, the counter may not come to its subnet. -/
theorem nodup_defaultAddresses_iff (hasIpv6 : Bool) (bridge : Word) (b : Board) :
    (defaultAddresses (generateNetworks hasIpv6 bridge .start b.networks)).Nodup ↔
      (b.LanDefault → b.others ≤ 8) := by
  rw [defaultAddresses_eq, List.nodup_map_iff subnet_injective, nodup_numbers_iff, fixed_askOf,
    List.nodup_replicate, nexts_askOf, b.lanDefault_iff, ← Board.others]
  constructor
  · rintro ⟨-, hout⟩ hpos
    have hten : 10 < 2 ∨ 2 + b.others ≤ 10 :=
      hout 10 (List.mem_replicate.2 ⟨Nat.ne_of_gt hpos, rfl⟩)
    omega
  · intro hfew
    refine ⟨b.lanAsks_le_one, ?_⟩
    intro n hn
    obtain ⟨hne, rfl⟩ := List.mem_replicate.1 hn
    have hle := hfew (Nat.pos_of_ne_zero hne)
    exact .inr (show 2 + b.others ≤ 10 by omega)

/-- The counter may not go on behind the last subnet. -/
theorem isIpv4_defaultAddresses_iff (hasIpv6 : Bool) (bridge : Word) (b : Board) :
    (∀ t ∈ defaultAddresses (generateNetworks hasIpv6 bridge .start b.networks), IsIpv4 t) ↔
      b.others ≤ 254 := by
  rw [defaultAddresses_eq, List.forall_mem_map]
  simp only [isIpv4_subnet_iff]
  rw [forall_numbers_iff, fixed_askOf, nexts_askOf, ← Board.others]
  constructor
  · rintro ⟨-, hcounter⟩
    by_contra hmany
    have hlast := hcounter 256 (by decide) (show 256 < 2 + b.others by omega)
    omega
  · intro hmany
    refine ⟨?_, ?_⟩
    · intro n hn
      rw [(List.mem_replicate.1 hn).2]
      decide
    · intro n _ hlt
      have hlt : n < 2 + b.others := hlt
      omega

/-- **The networks without an address get different addresses exactly when they are few.** -/
theorem noCollision_iff (hasIpv6 : Bool) (bridge : Word) (b : Board) :
    NoCollision hasIpv6 bridge b ↔ b.others ≤ 254 ∧ (b.LanDefault → b.others ≤ 8) := by
  constructor
  · rintro ⟨hdistinct, hvalid⟩
    exact ⟨(isIpv4_defaultAddresses_iff hasIpv6 bridge b).1 hvalid,
      (nodup_defaultAddresses_iff hasIpv6 bridge b).1 hdistinct⟩
  · rintro ⟨hmany, hfew⟩
    exact ⟨(nodup_defaultAddresses_iff hasIpv6 bridge b).2 hfew,
      (isIpv4_defaultAddresses_iff hasIpv6 bridge b).2 hmany⟩

/-- A static network on a device. -/
def staticOn (device : Word) : Network where
  device := device
  macaddr := []
  metric := []
  protocol := protoStatic
  ipaddr := []
  netmask := []
  vlan := []
  ports := []

/-- `lan`, and a network for each of nine other devices. -/
def tenNetworks : Board where
  networks := (lan, staticOn ['e', 't', 'h', '0']) ::
    (List.range' 1 9).map fun i => ("guest".toList ++ dec i, staticOn ("eth".toList ++ dec i))
  nodup := by decide +kernel

/-- The ninth of the other networks gets the address of `lan`. -/
theorem tenNetworks_collide : ¬ NoCollision true [] tenNetworks := by
  rintro ⟨hdistinct, -⟩
  revert hdistinct
  decide +kernel

end ConfigGenerate

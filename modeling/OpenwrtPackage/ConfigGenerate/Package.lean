/-
**The network package of a board.**

The commands for the networks of a board make sections: for each network its interface, perhaps an
alias for DHCPv6 beside it, and the devices that it needs.  A network is called by its key, its
alias by the key with a `6` behind it, and its VLAN by the key with `_vlan` behind it.

* `ConfigGenerate.edit` — what a command does to a package;
* `ConfigGenerate.sectionsOf`, `ConfigGenerate.sections` — the sections that a network asks for, and
  those of all networks;
* `ConfigGenerate.writes_generateNetworks` — the commands write these sections;
* `ConfigGenerate.package_iff` — **the networks of a board leave each other alone exactly when no
  two of their sections have one name**;
* `ConfigGenerate.vlans_iff` — **the boards whose networks get different VLANs of the bridge**.
-/
import OpenwrtPackage.ConfigGenerate.Network
import OpenwrtPackage.Lib.UciEdit

set_option relaxedAutoImplicit false
set_option autoImplicit false

namespace ConfigGenerate

open CScan
open Uci (Name isNameChar Section Opt Target Edit Change Writes names written settings)

/-! ### Commands as changes of a package -/

/-- The name that a word is. -/
def nameOf? (w : Word) : Option Name :=
  if h : w.all isNameChar = true then some ⟨w, List.all_eq_true.1 h⟩ else none

def UciOption.text : UciOption → Word
  | .name => "name".toList
  | .type => "type".toList
  | .macaddr => "macaddr".toList
  | .ports => "ports".toList
  | .device => "device".toList
  | .vlan => "vlan".toList
  | .metric => "metric".toList
  | .proto => "proto".toList
  | .ipaddr => "ipaddr".toList
  | .netmask => "netmask".toList
  | .ip6assign => "ip6assign".toList
  | .username => "username".toList
  | .password => "password".toList
  | .ipv6 => "ipv6".toList
  | .pdptype => "pdptype".toList

def UciOption.toName (o : UciOption) : Name := ⟨o.text, List.all_eq_true.1 (by cases o <;> rfl)⟩

/-- The types of sections. -/
def deviceType : Name := ⟨"device".toList, List.all_eq_true.1 rfl⟩

def interfaceType : Name := ⟨"interface".toList, List.all_eq_true.1 rfl⟩

def bridgeVlanType : Name := ⟨"bridge-vlan".toList, List.all_eq_true.1 rfl⟩

def UciSection.target : UciSection → Option Target
  | .named name => (nameOf? name).map .named
  | .lastDevice => some (.last deviceType)

/-- What a command does to the package `network`; nothing when a name is no name. -/
def edit : UciCommand → Option Edit
  | .delete name => (nameOf? name).map .delete
  | .create name type => (nameOf? name).bind fun n => (nameOf? type).map (.create n)
  | .addDevice => some (.add deviceType)
  | .set sec option value => sec.target.map fun t => .set t option.toName value
  | .addList sec option value => sec.target.map fun t => .addList t option.toName value

/-- The commands of all networks. -/
def commands (hasIpv6 : Bool) (bridge : Word) (c : Counters) (ns : List (Name × Network)) :
    List UciCommand :=
  (generateNetworks hasIpv6 bridge c (ns.map fun e => (e.1.text, e.2))).flatMap Prod.snd

/-! ### What a network asks for -/

def valuesOf (values : List (UciOption × Word)) : List (Name × Word) :=
  values.map fun v => (v.1.toName, v.2)

def optionsOf (values : List (UciOption × Word)) : List Opt := written (valuesOf values)

/-- A name with something behind it. -/
def suffixed (name : Name) (w : Word) (h : ∀ c ∈ w, isNameChar c = true) : Name :=
  ⟨name.text ++ w, fun c hc => (List.mem_append.1 hc).elim (name.isName c) (h c)⟩

def aliasName (key : Name) : Name := suffixed key ['6'] (List.all_eq_true.1 rfl)

def vlanName (key : Name) : Name := suffixed key "_vlan".toList (List.all_eq_true.1 rfl)

def deviceSection (device macaddr : Word) : Section :=
  ⟨none, deviceType, optionsOf [(.name, device), (.macaddr, macaddr)]⟩

/-- The bridge of a network, and its ports with their hardware address. -/
def bridgeSections (key : Name) (ports : List Word) (macaddr : Word) : List Section :=
  ⟨none, deviceType, optionsOf [(.name, "br-".toList ++ key.text), (.type, "bridge".toList)] ++
      [⟨UciOption.ports.toName, .list ports⟩]⟩ ::
    if macaddr ≠ [] then ports.map fun port => deviceSection port macaddr else []

def vlanSection (key : Name) (device : Word) (ports : List Word) (vlan : Word) : Section :=
  ⟨some (vlanName key), bridgeVlanType,
    optionsOf [(.device, device), (.vlan, vlan), (.ports, unwords ports)]⟩

/-- The options of the protocol. -/
def protocolValues (hasIpv6 : Bool) (addrOffset : ℕ) (key : Word) (n : Network) :
    List (UciOption × Word) :=
  if n.protocol = protoStatic then
    [(.proto, protoStatic), (.ipaddr, (staticAddress addrOffset key n).2),
      (.netmask, orDefault n.netmask "255.255.255.0".toList)] ++
      if hasIpv6 then [(.ip6assign, "60".toList)] else []
  else if n.protocol = protoDhcp then [(.proto, protoDhcp)]
  else if n.protocol = protoPppoe then
    [(.proto, protoPppoe), (.username, "username".toList), (.password, "password".toList)] ++
      if hasIpv6 then [(.ipv6, ['1'])] else []
  else if n.protocol = protoNcm ∨ n.protocol = protoQmi ∨ n.protocol = protoMbim then
    [(.proto, n.protocol), (.pdptype, "ipv4".toList)]
  else [(.proto, "none".toList)]

def interfaceSection (key : Name) (device metric : Word) (protocol : List (UciOption × Word)) :
    Section :=
  ⟨some key, interfaceType, optionsOf ([(.device, device), (.metric, metric)] ++ protocol)⟩

def aliasSection (key : Name) (device : Word) : Section :=
  ⟨some (aliasName key), interfaceType, optionsOf [(.device, device), (.proto, "dhcpv6".toList)]⟩

def aliasSections (hasIpv6 : Bool) (key : Name) (device : Word) (n : Network) : List Section :=
  if ¬ hasIpv6 then []
  else if n.protocol = protoDhcp then [aliasSection key device]
  else if n.protocol = protoPppoe then [aliasSection key ('@' :: key.text)]
  else []

/-- The bridge that is only for this network, or its VLAN of the bridge of the board. -/
def placeSections (bridge : Word) (bridgeVlanId : ℕ) (key : Name) (n : Network) : List Section :=
  let ports := if key.text = lan ∧ n.ports = [] then [n.device] else n.ports
  if bridge = [] then if ports = [] then [] else bridgeSections key ports n.macaddr
  else
    [vlanSection key bridge (if ports = [] then [n.device] else ports)
      (orDefault n.vlan (dec (if n.vlan = [] then bridgeVlanId + 1 else bridgeVlanId)))]

/-- The sections of a network. -/
def sectionsOf (hasIpv6 : Bool) (bridge : Word) (c : Counters) (key : Name) (n : Network) :
    List Section :=
  if n.device = [] ∧ n.ports = [] then []
  else
    let p := placeOf bridge c.bridgeVlanId key.text n
    placeSections bridge c.bridgeVlanId key n ++
      (if p.macaddr ≠ [] then [deviceSection p.device p.macaddr] else []) ++
      [interfaceSection key p.device n.metric
        (protocolValues hasIpv6 c.addrOffset key.text n)] ++
      aliasSections hasIpv6 key p.device n

/-- The sections of all networks. -/
def sections (hasIpv6 : Bool) (bridge : Word) : Counters → List (Name × Network) → List Section
  | _, [] => []
  | c, (key, n) :: ns =>
      sectionsOf hasIpv6 bridge c key n ++
        sections hasIpv6 bridge (generateNetwork hasIpv6 bridge c key.text n).1 ns

/-! ### Names -/

theorem nameOf?_eq {w : Word} {name : Name} (h : name.text = w) : nameOf? w = some name := by
  subst h
  exact dif_pos (List.all_eq_true.2 name.isName)

theorem nodup_valuesOf {values : List (UciOption × Word)} (h : (values.map Prod.fst).Nodup) :
    ((valuesOf values).map Prod.fst).Nodup := by
  have hinj : Function.Injective UciOption.toName := by
    intro o p hop
    have htext : o.text = p.text := congrArg Name.text hop
    revert htext
    cases o <;> cases p <;> decide
  have hnames : (valuesOf values).map Prod.fst = (values.map Prod.fst).map UciOption.toName := by
    rw [valuesOf, List.map_map, List.map_map]
    rfl
  rw [hnames]
  exact h.map hinj

/-! ### The commands write the sections -/

def editsOf (cs : List UciCommand) : List Edit := cs.filterMap edit

theorem editsOf_append (cs ds : List UciCommand) : editsOf (cs ++ ds) = editsOf cs ++ editsOf ds :=
  List.filterMap_append

theorem editsOf_setAll {sec : UciSection} {target : Target} (h : sec.target = some target)
    (values : List (UciOption × Word)) :
    editsOf (setAll sec values) = (settings (valuesOf values)).map (Change.on target) := by
  rw [editsOf, setAll, settings, valuesOf, List.filterMap_map, List.map_map, List.map_map]
  induction values with
  | nil => rfl
  | cons v values ih =>
      have hv : (edit ∘ fun v : UciOption × Word => .set sec v.1 v.2) v =
          some (.set target v.1.toName v.2) := by
        rw [Function.comp, edit, h]
        rfl
      rw [List.filterMap_cons_some hv, ih]
      rfl

theorem target_named {w : Word} {name : Name} (h : name.text = w) :
    (UciSection.named w).target = some (.named name) := by
  rw [UciSection.target, nameOf?_eq h]
  rfl

theorem edit_create {w ty : Word} {name type : Name} (h : name.text = w) (hty : type.text = ty) :
    edit (.create w ty) = some (.create name type) := by
  rw [edit, nameOf?_eq h, nameOf?_eq hty]
  rfl

theorem edit_delete {w : Word} {name : Name} (h : name.text = w) :
    edit (.delete w) = some (.delete name) := by
  rw [edit, nameOf?_eq h]
  rfl

/-- A device with a hardware address. -/
theorem writes_deviceMac (device macaddr : Word) :
    Writes (editsOf (deviceMac device macaddr)) [deviceSection device macaddr] := by
  have hedits : editsOf (deviceMac device macaddr) = .add deviceType ::
      (settings (valuesOf [(.name, device), (.macaddr, macaddr)])).map
        (Change.on (.last deviceType)) := rfl
  rw [hedits]
  exact Writes.anonymous (Uci.settings_new (nodup_valuesOf (by simp)) none deviceType).symm

theorem writes_deviceMacs (ports : List Word) (macaddr : Word) :
    Writes (editsOf (ports.flatMap fun port => deviceMac port macaddr))
      (ports.map fun port => deviceSection port macaddr) := by
  induction ports with
  | nil => exact Writes.nil
  | cons port ports ih =>
      rw [List.flatMap_cons, editsOf_append, List.map_cons]
      exact (writes_deviceMac port macaddr).append ih

/-- The bridge of a network has the ports. -/
theorem writes_ownBridge (key : Name) {ports : List Word} (hports : ports ≠ []) (macaddr : Word) :
    Writes (editsOf (ownBridge key.text ports macaddr)) (bridgeSections key ports macaddr) := by
  obtain ⟨port, ports, rfl⟩ := List.exists_cons_of_ne_nil hports
  have hedits : ∀ ps : List Word,
      editsOf (ps.map (UciCommand.addList .lastDevice .ports)) =
        (ps.map (Change.addList UciOption.ports.toName)).map (Change.on (.last deviceType)) := by
    intro ps
    rw [editsOf, List.filterMap_map, List.map_map, ← List.filterMap_eq_map]
    rfl
  have hfree : UciOption.ports.toName ∉ (written (valuesOf
      [(.name, "br-".toList ++ key.text), (.type, "bridge".toList)])).map Opt.name := by
    intro h
    have hmem := Uci.name_of_mem_written h
    revert hmem
    simp only [valuesOf, List.map_cons, List.map_nil]
    decide
  have hfront : editsOf (.addDevice :: setAll .lastDevice
        [(.name, "br-".toList ++ key.text), (.type, "bridge".toList)] ++
        (port :: ports).map (.addList .lastDevice .ports)) = .add deviceType ::
      (settings (valuesOf [(.name, "br-".toList ++ key.text), (.type, "bridge".toList)]) ++
        (port :: ports).map (Change.addList UciOption.ports.toName)).map
          (Change.on (.last deviceType)) := by
    rw [editsOf_append, hedits, List.map_append]
    rfl
  have hbridge := @Writes.anonymous deviceType
    (settings (valuesOf [(.name, "br-".toList ++ key.text), (.type, "bridge".toList)]) ++
      (port :: ports).map (Change.addList UciOption.ports.toName)) _ rfl
  rw [List.foldl_append, Uci.settings_new (nodup_valuesOf (by simp)),
    Uci.addLists_new hfree] at hbridge
  have hmacs : Writes
      (editsOf (if macaddr ≠ [] then (port :: ports).flatMap fun p => deviceMac p macaddr else []))
      (if macaddr ≠ [] then (port :: ports).map fun p => deviceSection p macaddr else []) := by
    by_cases hmacaddr : macaddr ≠ []
    · rw [if_pos hmacaddr, if_pos hmacaddr]
      exact writes_deviceMacs (port :: ports) macaddr
    · rw [if_neg hmacaddr, if_neg hmacaddr]
      exact Writes.nil
  rw [ownBridge, editsOf_append, hfront]
  exact hbridge.append hmacs

theorem writes_vlan (key : Name) (device : Word) (ports : List Word) (vlan : Word) :
    Writes (editsOf (generateBridgeVlan key.text device ports vlan))
      [vlanSection key device ports vlan] := by
  have hname : (vlanName key).text = key.text ++ "_vlan".toList := rfl
  have hcreate : edit (.create (key.text ++ "_vlan".toList) "bridge-vlan".toList) =
      some (.create (vlanName key) bridgeVlanType) := edit_create hname rfl
  have hedits : editsOf (generateBridgeVlan key.text device ports vlan) =
      .create (vlanName key) bridgeVlanType ::
        editsOf (setAll (.named (key.text ++ "_vlan".toList))
          [(.device, device), (.vlan, vlan), (.ports, unwords ports)]) := by
    rw [generateBridgeVlan, editsOf, List.filterMap_cons_some hcreate]
    rfl
  rw [hedits, editsOf_setAll (target_named hname)]
  exact Writes.made (Uci.settings_new (nodup_valuesOf (by simp)) _ bridgeVlanType).symm

theorem writes_alias (key : Name) (device : Word) :
    Writes (editsOf (ipv6Alias key.text device)) [aliasSection key device] := by
  have hname : (aliasName key).text = key.text ++ ['6'] := rfl
  have hcreate : edit (.create (key.text ++ ['6']) "interface".toList) =
      some (.create (aliasName key) interfaceType) := edit_create hname rfl
  have hedits : editsOf (ipv6Alias key.text device) =
      .delete (aliasName key) :: .create (aliasName key) interfaceType ::
        editsOf (setAll (.named (key.text ++ ['6']))
          [(.device, device), (.proto, "dhcpv6".toList)]) := by
    rw [ipv6Alias, editsOf_append, editsOf, List.filterMap_cons_some (edit_delete hname),
      List.filterMap_cons_some hcreate, List.filterMap_nil, List.cons_append, List.cons_append,
      List.nil_append]
  rw [hedits, editsOf_setAll (target_named hname)]
  exact Writes.fresh (Uci.settings_new (nodup_valuesOf (by simp)) _ interfaceType).symm

theorem writes_placeOf (bridge : Word) (bridgeVlanId : ℕ) (key : Name) (n : Network) :
    Writes (editsOf (placeOf bridge bridgeVlanId key.text n).commands)
      (placeSections bridge bridgeVlanId key n) := by
  rw [placeOf, placeSections]
  generalize (if key.text = lan ∧ n.ports = [] then [n.device] else n.ports) = ports
  by_cases hbridge : bridge = []
  · simp only [if_pos hbridge]
    by_cases hports : ports = []
    · simp only [if_pos hports]
      exact Writes.nil
    · simp only [if_neg hports]
      exact writes_ownBridge key hports n.macaddr
  · simp only [if_neg hbridge]
    exact writes_vlan key bridge _ _

/-- What the settings of a protocol are: an interface without one keeps `none`. -/
def Declares (values declared : List (UciOption × Word)) : Prop :=
  (values = [] ∧ declared = [(.proto, "none".toList)]) ∨
    ∃ proto back, proto ≠ [] ∧ values = (.proto, proto) :: back ∧ declared = values ∧
      (UciOption.type :: .device :: .metric :: .proto :: back.map Prod.fst).Nodup

/-- The commands for the protocol set options of the interface, and make the alias. -/
theorem protocolCommands_eq (hasIpv6 : Bool) (addrOffset : ℕ) (key : Name) (device : Word)
    (n : Network) :
    ∃ values aliases,
      (protocolCommands hasIpv6 addrOffset key.text device n).2 =
          setAll (.named key.text) values ++ aliases ∧
        Writes (editsOf aliases) (aliasSections hasIpv6 key device n) ∧
        Declares values (protocolValues hasIpv6 addrOffset key.text n) := by
  unfold protocolCommands protocolValues aliasSections
  by_cases hstatic : n.protocol = protoStatic
  · have hdhcp : n.protocol ≠ protoDhcp := hstatic ▸ by decide
    have hpppoe : n.protocol ≠ protoPppoe := hstatic ▸ by decide
    simp only [if_pos hstatic, if_neg hdhcp, if_neg hpppoe, ite_self]
    refine ⟨_, [], ?_, Writes.nil, Or.inr ⟨_, _, List.cons_ne_nil _ _, rfl, rfl, ?_⟩⟩
    · cases hasIpv6 <;> rfl
    · cases hasIpv6 <;> simp
  by_cases hdhcp : n.protocol = protoDhcp
  · simp only [if_neg hstatic, if_pos hdhcp]
    refine ⟨_, if hasIpv6 then ipv6Alias key.text device else [], rfl, ?_,
      Or.inr ⟨_, _, List.cons_ne_nil _ _, rfl, rfl, by simp⟩⟩
    cases hasIpv6 with
    | false => exact Writes.nil
    | true => exact writes_alias key device
  by_cases hpppoe : n.protocol = protoPppoe
  · simp only [if_neg hstatic, if_neg hdhcp, if_pos hpppoe]
    refine ⟨_, if hasIpv6 then ipv6Alias key.text ('@' :: key.text) else [], ?_, ?_,
      Or.inr ⟨_, _, List.cons_ne_nil _ _, rfl, rfl, ?_⟩⟩
    · cases hasIpv6 <;> rfl
    · cases hasIpv6 with
      | false => exact Writes.nil
      | true => exact writes_alias key ('@' :: key.text)
    · cases hasIpv6 <;> simp
  simp only [if_neg hstatic, if_neg hdhcp, if_neg hpppoe, ite_self]
  by_cases hmodem : n.protocol = protoNcm ∨ n.protocol = protoQmi ∨ n.protocol = protoMbim
  · have hne : n.protocol ≠ [] := by
      rcases hmodem with h | h | h <;> rw [h] <;> exact List.cons_ne_nil _ _
    simp only [if_pos hmodem]
    exact ⟨_, [], (List.append_nil _).symm, Writes.nil, Or.inr ⟨_, _, hne, rfl, rfl, by simp⟩⟩
  · simp only [if_neg hmodem]
    exact ⟨[], [], rfl, Writes.nil, Or.inl ⟨rfl, rfl⟩⟩

/-- The interface of a network. -/
theorem writes_interface (key : Name) (device metric : Word)
    {values declared : List (UciOption × Word)} (h : Declares values declared) :
    Writes (editsOf ([.delete key.text, .create key.text "interface".toList] ++
        setAll (.named key.text) [(.type, []), (.device, device), (.metric, metric),
          (.proto, "none".toList)] ++ setAll (.named key.text) values))
      [interfaceSection key device metric declared] := by
  have hedits : editsOf ([.delete key.text, .create key.text "interface".toList] ++
        setAll (.named key.text) [(.type, []), (.device, device), (.metric, metric),
          (.proto, "none".toList)] ++ setAll (.named key.text) values) =
      .delete key :: .create key interfaceType ::
        (settings (valuesOf [(.type, []), (.device, device), (.metric, metric),
          (.proto, "none".toList)]) ++ settings (valuesOf values)).map
            (Change.on (.named key)) := by
    have hcreate : edit (.create key.text "interface".toList) =
        some (.create key interfaceType) := edit_create rfl rfl
    rw [editsOf_append, editsOf_append, editsOf_setAll (target_named rfl),
      editsOf_setAll (target_named rfl), editsOf, List.filterMap_cons_some (edit_delete rfl),
      List.filterMap_cons_some hcreate, List.map_append]
    rfl
  rw [hedits]
  refine Writes.fresh ?_
  rcases h with ⟨rfl, rfl⟩ | ⟨proto, back, hproto, rfl, rfl, hnodup⟩
  · have hnil : settings (valuesOf []) = [] := rfl
    rw [hnil, List.append_nil, Uci.settings_new (nodup_valuesOf (by simp))]
    rfl
  · exact (@Uci.settings_again
      (valuesOf [(UciOption.type, []), (.device, device), (.metric, metric)]) (valuesOf back)
      UciOption.proto.toName "none".toList proto (@nodup_valuesOf
        ((.type, []) :: (.device, device) :: (.metric, metric) :: (.proto, proto) :: back) hnodup)
      (List.cons_ne_nil _ _) hproto (some key) interfaceType).symm

/-- **One network**: its sections are written. -/
theorem writes_generateNetwork (hasIpv6 : Bool) (bridge : Word) (c : Counters) (key : Name)
    (n : Network) :
    Writes (editsOf (generateNetwork hasIpv6 bridge c key.text n).2)
      (sectionsOf hasIpv6 bridge c key n) := by
  rw [generateNetwork, sectionsOf]
  by_cases hnowhere : n.device = [] ∧ n.ports = []
  · rw [if_pos hnowhere, if_pos hnowhere]
    exact Writes.nil
  rw [if_neg hnowhere, if_neg hnowhere]
  have hplace := writes_placeOf bridge c.bridgeVlanId key n
  generalize placeOf bridge c.bridgeVlanId key.text n = p at hplace ⊢
  obtain ⟨values, aliases, hcommands, haliases, hdeclares⟩ :=
    protocolCommands_eq hasIpv6 c.addrOffset key p.device n
  have hmac : Writes (editsOf (if p.macaddr ≠ [] then deviceMac p.device p.macaddr else []))
      (if p.macaddr ≠ [] then [deviceSection p.device p.macaddr] else []) := by
    by_cases hmacaddr : p.macaddr ≠ []
    · rw [if_pos hmacaddr, if_pos hmacaddr]
      exact writes_deviceMac p.device p.macaddr
    · rw [if_neg hmacaddr, if_neg hmacaddr]
      exact Writes.nil
  have hinterface := writes_interface key p.device n.metric hdeclares
  have hwrites := ((hplace.append hmac).append hinterface).append haliases
  simp only [← editsOf_append] at hwrites
  simp only [hcommands]
  simpa only [List.append_assoc] using hwrites

/-- **The commands for all networks write their sections.** -/
theorem writes_generateNetworks (hasIpv6 : Bool) (bridge : Word) (c : Counters)
    (ns : List (Name × Network)) :
    Writes (editsOf (commands hasIpv6 bridge c ns)) (sections hasIpv6 bridge c ns) := by
  induction ns generalizing c with
  | nil => exact Writes.nil
  | cons e ns ih =>
      obtain ⟨key, n⟩ := e
      have hcons : commands hasIpv6 bridge c ((key, n) :: ns) =
          (generateNetwork hasIpv6 bridge c key.text n).2 ++
            commands hasIpv6 bridge (generateNetwork hasIpv6 bridge c key.text n).1 ns := by
        rw [commands, List.map_cons, generateNetworks, List.flatMap_cons]
        rfl
      rw [hcons, editsOf_append, sections]
      exact (writes_generateNetwork hasIpv6 bridge c key n).append (ih _)

/-! ### The names -/

/-- The names of the sections of a network. -/
def namesOf (hasIpv6 : Bool) (bridge : Word) (e : Name × Network) : List Name :=
  if e.2.device = [] ∧ e.2.ports = [] then []
  else
    (if bridge = [] then [] else [vlanName e.1]) ++ [e.1] ++
      if hasIpv6 ∧ (e.2.protocol = protoDhcp ∨ e.2.protocol = protoPppoe) then [aliasName e.1]
      else []

theorem names_bridgeSections (key : Name) (ports : List Word) (macaddr : Word) :
    names (bridgeSections key ports macaddr) = [] := by
  have hdevices : names (ports.map fun port => deviceSection port macaddr) = [] := by
    rw [names, List.filterMap_map]
    exact List.filterMap_eq_nil_iff.2 fun _ _ => rfl
  rw [bridgeSections, names, List.filterMap_cons_none rfl]
  split
  · exact hdevices
  · rfl

theorem names_placeSections (bridge : Word) (bridgeVlanId : ℕ) (key : Name) (n : Network) :
    names (placeSections bridge bridgeVlanId key n) =
      if bridge = [] then [] else [vlanName key] := by
  rw [placeSections]
  generalize (if key.text = lan ∧ n.ports = [] then [n.device] else n.ports) = ports
  by_cases hbridge : bridge = []
  · simp only [if_pos hbridge]
    split
    · rfl
    · exact names_bridgeSections key ports n.macaddr
  · simp only [if_neg hbridge]
    rfl

theorem names_aliasSections (hasIpv6 : Bool) (key : Name) (device : Word) (n : Network) :
    names (aliasSections hasIpv6 key device n) =
      if hasIpv6 ∧ (n.protocol = protoDhcp ∨ n.protocol = protoPppoe) then [aliasName key]
      else [] := by
  rw [aliasSections]
  cases hasIpv6 with
  | false => simp [names]
  | true =>
      rw [if_neg (not_not_intro rfl)]
      by_cases hdhcp : n.protocol = protoDhcp
      · rw [if_pos hdhcp, if_pos ⟨rfl, Or.inl hdhcp⟩]
        rfl
      · rw [if_neg hdhcp]
        by_cases hpppoe : n.protocol = protoPppoe
        · rw [if_pos hpppoe, if_pos ⟨rfl, Or.inr hpppoe⟩]
          rfl
        · rw [if_neg hpppoe, if_neg]
          · rfl
          · rintro ⟨-, h | h⟩
            · exact hdhcp h
            · exact hpppoe h

theorem names_sectionsOf (hasIpv6 : Bool) (bridge : Word) (c : Counters) (key : Name)
    (n : Network) :
    names (sectionsOf hasIpv6 bridge c key n) = namesOf hasIpv6 bridge (key, n) := by
  rw [sectionsOf, namesOf]
  by_cases hnowhere : n.device = [] ∧ n.ports = []
  · rw [if_pos hnowhere, if_pos hnowhere]
    rfl
  · have hmac : ∀ p : Place,
        names (if p.macaddr ≠ [] then [deviceSection p.device p.macaddr] else []) = [] := by
      intro p
      split <;> rfl
    rw [if_neg hnowhere, if_neg hnowhere]
    simp only [Uci.names_append, names_placeSections, names_aliasSections, hmac, List.append_nil]
    rfl

theorem names_sections (hasIpv6 : Bool) (bridge : Word) (c : Counters)
    (ns : List (Name × Network)) :
    names (sections hasIpv6 bridge c ns) = ns.flatMap (namesOf hasIpv6 bridge) := by
  induction ns generalizing c with
  | nil => rfl
  | cons e ns ih =>
      obtain ⟨key, n⟩ := e
      rw [sections, Uci.names_append, names_sectionsOf, ih, List.flatMap_cons]

/-- **The networks of a board leave each other alone exactly when no two of their sections have one
name**, and none a name that is there already. -/
theorem package_iff (hasIpv6 : Bool) (bridge : Word) (ns : List (Name × Network))
    {package : List Section} (h : (names package).Nodup) :
    Uci.run (editsOf (commands hasIpv6 bridge .start ns)) package =
        package ++ sections hasIpv6 bridge .start ns ↔
      (names package ++ ns.flatMap (namesOf hasIpv6 bridge)).Nodup := by
  have hiff := (writes_generateNetworks hasIpv6 bridge .start ns).run_iff h
  rwa [Uci.names_append, names_sections] at hiff

def loopback : Section := ⟨some ⟨"loopback".toList, List.all_eq_true.1 rfl⟩, interfaceType, []⟩

def lanAndWan : List (Name × Network) :=
  [(⟨lan, List.all_eq_true.1 rfl⟩, { staticOn "eth0".toList with ports := ["eth0".toList] }),
    (⟨"wan".toList, List.all_eq_true.1 rfl⟩,
      { staticOn "eth1".toList with protocol := protoDhcp })]

/-- `lan` and `wan` behind the loopback interface. -/
theorem package_iff_wan :
    Uci.run (editsOf (commands true [] .start lanAndWan)) [loopback] =
      [loopback] ++ sections true [] .start lanAndWan :=
  (package_iff true [] lanAndWan (by decide)).2 (by decide)

/-! ### The VLANs of the bridge -/

/-- The VLAN that a command gives to a network. -/
def UciCommand.vlan? : UciCommand → Option Word
  | .set _ .vlan value => some value
  | _ => none

/-- The VLANs of all networks. -/
def vlans (run : List (Network × List UciCommand)) : List Word :=
  run.flatMap fun r => r.2.filterMap UciCommand.vlan?

/-- A network that is somewhere. -/
def Network.placed (n : Network) : Bool := ¬ (n.device = [] ∧ n.ports = [])

/-- The VLANs that the board gives. -/
def fixedVlans (ns : List (Word × Network)) : List Word :=
  (ns.filter fun e => e.2.placed ∧ e.2.vlan ≠ []).map fun e => e.2.vlan

/-- How many networks get a VLAN of the counter. -/
def freeVlans (ns : List (Word × Network)) : ℕ := ns.countP fun e => e.2.placed ∧ e.2.vlan = []

/-- The protocol of a network gives no VLAN. -/
theorem vlans_protocolCommands (hasIpv6 : Bool) (addrOffset : ℕ) (key device : Word)
    (n : Network) :
    (protocolCommands hasIpv6 addrOffset key device n).2.filterMap UciCommand.vlan? = [] := by
  unfold protocolCommands
  split
  · cases hasIpv6 <;> rfl
  · split
    · cases hasIpv6 <;> rfl
    · split
      · cases hasIpv6 <;> rfl
      · split <;> rfl

/-- A network of the bridge of the board. -/
theorem vlans_placeOf {bridge : Word} (hbridge : bridge ≠ []) (k : ℕ) (key : Word) (n : Network) :
    (placeOf bridge k key n).bridgeVlanId = (if n.vlan = [] then k + 1 else k) ∧
      (placeOf bridge k key n).commands.filterMap UciCommand.vlan? =
        [if n.vlan = [] then dec (k + 1) else n.vlan] := by
  rw [placeOf]
  simp only [if_neg hbridge, orDefault]
  by_cases hvlan : n.vlan = []
  · simp only [if_pos hvlan]
    exact ⟨trivial, rfl⟩
  · simp only [if_neg hvlan]
    exact ⟨trivial, rfl⟩

/-- **One network of the bridge**: it has the VLAN that it gives, or the next one. -/
theorem vlans_generateNetwork (hasIpv6 : Bool) {bridge : Word} (hbridge : bridge ≠ [])
    (c : Counters) (key : Word) (n : Network) :
    (generateNetwork hasIpv6 bridge c key n).1.bridgeVlanId =
        c.bridgeVlanId + freeVlans [(key, n)] ∧
      (generateNetwork hasIpv6 bridge c key n).2.filterMap UciCommand.vlan? =
        fixedVlans [(key, n)] ++
          (List.range' (c.bridgeVlanId + 1) (freeVlans [(key, n)])).map dec := by
  rw [generateNetwork, freeVlans, fixedVlans, List.countP_singleton]
  by_cases hnowhere : n.device = [] ∧ n.ports = []
  · have hplaced : n.placed = false := by simp [Network.placed, hnowhere]
    simp [hnowhere, hplaced]
  have hplaced : n.placed = true := decide_eq_true hnowhere
  obtain ⟨hcounter, hvlans⟩ := vlans_placeOf hbridge c.bridgeVlanId key n
  have hmac : ∀ p : Place, (if p.macaddr ≠ [] then deviceMac p.device p.macaddr else []).filterMap
      UciCommand.vlan? = [] := by
    intro p
    split <;> rfl
  have hsettings : ∀ p : Place, (setAll (.named key) [(.type, []), (.device, p.device),
      (.metric, n.metric), (.proto, "none".toList)]).filterMap UciCommand.vlan? = [] := fun _ => rfl
  have hcreate : [UciCommand.delete key, .create key "interface".toList].filterMap
      UciCommand.vlan? = [] := rfl
  rw [if_neg hnowhere]
  simp only [List.filterMap_append, hvlans, hmac, hcreate, hsettings, vlans_protocolCommands,
    List.append_nil, hcounter]
  by_cases hvlan : n.vlan = []
  · simp [hvlan, hplaced]
  · simp [hvlan, hplaced]

/-- The VLANs are those that are given and numbers from the counter. -/
theorem vlans_perm (hasIpv6 : Bool) {bridge : Word} (hbridge : bridge ≠ []) (c : Counters)
    (ns : List (Word × Network)) :
    (vlans (generateNetworks hasIpv6 bridge c ns)).Perm
      (fixedVlans ns ++ (List.range' (c.bridgeVlanId + 1) (freeVlans ns)).map dec) := by
  induction ns generalizing c with
  | nil => exact List.Perm.refl _
  | cons e ns ih =>
      obtain ⟨key, n⟩ := e
      obtain ⟨hcounter, hvlans⟩ := vlans_generateNetwork hasIpv6 hbridge c key n
      have hrest := ih (generateNetwork hasIpv6 bridge c key n).1
      have hfree : freeVlans ((key, n) :: ns) = freeVlans [(key, n)] + freeVlans ns := by
        rw [freeVlans, freeVlans, freeVlans, ← List.countP_append]
        rfl
      have hfixed : fixedVlans ((key, n) :: ns) = fixedVlans [(key, n)] ++ fixedVlans ns := by
        rw [fixedVlans, fixedVlans, fixedVlans, ← List.map_append, ← List.filter_append]
        rfl
      have hrange : List.range' (c.bridgeVlanId + 1) (freeVlans ((key, n) :: ns)) =
          List.range' (c.bridgeVlanId + 1) (freeVlans [(key, n)]) ++
            List.range' (c.bridgeVlanId + freeVlans [(key, n)] + 1) (freeVlans ns) := by
        rw [hfree, ← List.range'_append_1]
        congr 2
        omega
      rw [hcounter] at hrest
      rw [generateNetworks, vlans, List.flatMap_cons, hvlans, hfixed, hrange, List.map_append]
      refine (hrest.append_left _).trans ?_
      rw [List.append_assoc, List.append_assoc]
      exact (List.perm_append_comm_assoc _ _ _).append_left _

/-- **The networks of the bridge get different VLANs exactly when the board gives each at most once,
and none that the counter comes to.** -/
theorem vlans_iff (hasIpv6 : Bool) {bridge : Word} (hbridge : bridge ≠ [])
    (ns : List (Word × Network)) :
    (vlans (generateNetworks hasIpv6 bridge .start ns)).Nodup ↔
      (fixedVlans ns).Nodup ∧ ∀ k, 1 ≤ k → k ≤ freeVlans ns → dec k ∉ fixedVlans ns := by
  have hdec : ((List.range' 1 (freeVlans ns)).map dec).Nodup :=
    List.Nodup.map (fun _ _ h => dec_inj.1 h) (List.nodup_range' _)
  have hperm : (vlans (generateNetworks hasIpv6 bridge .start ns)).Perm
      (fixedVlans ns ++ (List.range' 1 (freeVlans ns)).map dec) :=
    vlans_perm hasIpv6 hbridge .start ns
  rw [hperm.nodup_iff, List.nodup_append]
  constructor
  · rintro ⟨hfixed, -, hapart⟩
    refine ⟨hfixed, fun k hlow hhigh hmem => ?_⟩
    exact hapart _ hmem _ (List.mem_map.2 ⟨k, List.mem_range'_1.2 ⟨hlow, by omega⟩, rfl⟩) rfl
  · rintro ⟨hfixed, hfree⟩
    refine ⟨hfixed, hdec, ?_⟩
    rintro v hv w hw rfl
    obtain ⟨k, hk, rfl⟩ := List.mem_map.1 hw
    obtain ⟨hlow, hhigh⟩ := List.mem_range'_1.1 hk
    exact hfree k hlow (by omega) hv

/-- A VLAN that the board gives, and that the counter comes to. -/
theorem vlans_iff_collide :
    ¬ (vlans (generateNetworks true "switch".toList .start
      [(lan, { staticOn "eth0".toList with vlan := ['2'] }), ("wan".toList, staticOn "eth1".toList),
        ("guest".toList, staticOn "eth2".toList)])).Nodup := by
  intro h
  exact ((vlans_iff true (by decide) _).1 h).2 2 (by decide) (by decide) (by decide)

end ConfigGenerate

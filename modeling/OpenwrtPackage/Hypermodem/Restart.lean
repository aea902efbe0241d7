/-
**Starting the service again.**

Each time a service section is dialled, `set_interface` sets two interfaces of the package `network`
to the modem that is there, and puts both of them into a zone of the package `firewall`.  Nothing
takes them back when the service stops.

* `Hypermodem.Config` — the two packages;
* `Hypermodem.setInterface`, `Hypermodem.dial`, `Hypermodem.dialAll` — the functions;
* `Hypermodem.Settled` — an interface that is not added any more, with
  `Hypermodem.settled_setFirewall`;
* `Hypermodem.dialAll_same` — **however often the service has been started, the packages read as
  after the last start alone**.
-/
import OpenwrtPackage.Hypermodem.Firewall
import OpenwrtPackage.Hypermodem.RunDial
import OpenwrtPackage.Lib.UciBlocks

set_option relaxedAutoImplicit false
set_option autoImplicit false

namespace Hypermodem

open QuectelCM (Word)
open Uci (Name Section Value Edit Target Block SamePackage sectionsOf addListAt)

/-! ### The functions -/

structure Config where
  network : List Section
  firewall : List Section

def Interface.toName (i : Interface) : Name where
  text := i.text
  isName := by
    intro c hc
    have hword := i.isWord c hc
    unfold Grep.isWordChar at hword
    unfold Uci.isNameChar
    rw [hword, Bool.true_or]

/-- `wwan6_5g` -/
def wwan65g : Interface where
  text := ['w', 'w', 'a', 'n', '6', '_', '5', 'g']
  ne_nil := List.cons_ne_nil _ _
  isWord := List.all_eq_true.1 rfl

def interface : Name := nameOf "interface".toList (by decide)

def proto : Name := nameOf "proto".toList (by decide)

def device : Name := nameOf "device".toList (by decide)

def ifname : Name := nameOf "ifname".toList (by decide)

def prefixOption : Name := nameOf "extendprefix".toList (by decide)

/-- What `set_ipv4_interface` sets. -/
def ipv4Block (i : Interface) (dev : Word) : Block where
  name := i.toName
  type := interface
  values := [(proto, "dhcp".toList), (device, dev), (ifname, dev)]

/-- What `set_ipv6_interface` sets. -/
def ipv6Block (i : Interface) (dev : Word) : Block where
  name := i.toName
  type := interface
  values := [(proto, "dhcpv6".toList), (prefixOption, ['1']), (device, dev), (ifname, dev)]

/-- `set_ipv4_interface` -/
def setIpv4Interface (i : Interface) (dev : Word) (c : Config) : Config :=
  ⟨Uci.run (ipv4Block i dev).edits c.network, setFirewall i c.firewall⟩

/-- `set_ipv6_interface` -/
def setIpv6Interface (i : Interface) (dev : Word) (c : Config) : Config :=
  ⟨Uci.run (ipv6Block i dev).edits c.network, setFirewall i c.firewall⟩

/-- `set_ipv4v6_interface` -/
def setIpv4v6Interface (i j : Interface) (dev : Word) (c : Config) : Config :=
  setIpv6Interface j ('@' :: i.text) (setIpv4Interface i dev c)

/-- `set_interface`, with the variable `ipv6` of `run_dial`. -/
def setInterface (ipv6 dev : Word) (c : Config) : Config :=
  let pdpType := if ipv6 = ['1'] then "ipv4v6".toList else []
  if pdpType = "ipv4".toList then setIpv4Interface wwan5g dev c
  else if pdpType = "ipv6".toList then setIpv6Interface wwan65g dev c
  else if pdpType = "ipv4v6".toList then setIpv4v6Interface wwan5g wwan65g dev c
  else setIpv4v6Interface wwan5g wwan65g dev c

/-- `network_interface`, where `classNet` are the names in `/sys/class/net`. -/
def networkInterface (classNet : List Word) : Word :=
  if classNet.contains "rmnet_mhi0".toList then "rmnet_mhi0.1".toList
  else if classNet.contains "wwan0_1".toList then "wwan0_1".toList
  else if classNet.contains "wwan0.1".toList then "wwan0.1".toList
  else if classNet.contains "wwan0".toList then "wwan0".toList
  else []

/-- What `run_dial` does to the packages, for a section and the network devices that are there. -/
def dial (c : Config) (call : UciSection × List Word) : Config :=
  if configGetBool call.1 "enabled" = ['1'] then
    setInterface (dialVar call.1 "ipv6") (networkInterface call.2) c
  else c

/-- `config_foreach run_dial service`, for one start after the other. -/
def dialAll (calls : List (UciSection × List Word)) (c : Config) : Config := calls.foldl dial c

/-! ### The firewall -/

/-- An interface that is not added any more. -/
def Settled (i : Interface) (ss : List Section) : Prop := setFirewall i ss = ss

theorem mentions_addListAt {i : Interface} {ss : List Section} {k : ℕ} (h : Mentions i ss k)
    (v : List Char) : Mentions i (addListAt zone network v k ss) k := by
  obtain ⟨old, hold, u, hu, hword⟩ := h
  obtain ⟨z, hz, hget⟩ := Option.bind_eq_some_iff.1 hold
  have hvalues : (((z.get network).map Value.values).getD []) = old.values := by
    rw [hget]
    rfl
  refine ⟨.list (old.values ++ [v]), ?_, u, List.mem_append_left _ hu, hword⟩
  rw [Uci.sectionsOf_addListAt, List.getElem?_modify_eq, hz, ← hvalues]
  exact Uci.get_addList network v z

theorem settled_iff {i : Interface} {ss : List Section} :
    Settled i ss ↔
      Mentions i ss (wanNames ss) ∨ (sectionsOf zone ss).length ≤ wanNames ss :=
  setFirewall_eq_self_iff

/-- The interface is added once. -/
theorem settled_self (i : Interface) (ss : List Section) : Settled i (setFirewall i ss) := by
  rw [setFirewall_eq]
  split
  · next h => exact settled_iff.2 (Or.inl h)
  · rw [settled_iff, wanNames_addListAt]
    by_cases hlen : wanNames ss < (sectionsOf zone ss).length
    · exact Or.inl (mentions_of_inZone (inZone_addListAt hlen))
    · rw [Uci.addListAt_of_le (not_lt.1 hlen)]
      exact Or.inr (not_lt.1 hlen)

/-- **Other interfaces do not take its place.** -/
theorem settled_setFirewall {i : Interface} {ss : List Section} (h : Settled i ss)
    (j : Interface) : Settled i (setFirewall j ss) := by
  rw [setFirewall_eq]
  split
  · exact h
  · rw [settled_iff] at h ⊢
    rw [wanNames_addListAt, Uci.sectionsOf_addListAt, List.length_modify]
    rcases h with h | h
    · exact Or.inl (mentions_addListAt h j.text)
    · exact Or.inr h

/-! ### One call -/

/-- Whatever the section says, both interfaces are set. -/
theorem setInterface_eq (ipv6 dev : Word) (c : Config) :
    setInterface ipv6 dev c = setIpv4v6Interface wwan5g wwan65g dev c := by
  unfold setInterface
  by_cases h : ipv6 = ['1']
  · rw [if_pos h]
    rfl
  · rw [if_neg h]
    rfl

/-- The blocks of a call. -/
def blocksOf (dev : Word) : List Block :=
  [ipv4Block wwan5g dev, ipv6Block wwan65g ('@' :: wwan5g.text)]

/-- Only the values depend on the modem. -/
theorem shape_blocksOf (dev dev' : Word) :
    (blocksOf dev).map Block.shape = (blocksOf dev').map Block.shape := rfl

theorem setInterface_network (ipv6 dev : Word) (c : Config) :
    (setInterface ipv6 dev c).network =
      Uci.run ((blocksOf dev).flatMap Block.edits) c.network := by
  rw [setInterface_eq, blocksOf, List.flatMap_cons, Uci.run_append, List.flatMap_cons,
    List.flatMap_nil, List.append_nil]
  rfl

theorem setInterface_firewall (ipv6 dev : Word) (c : Config) :
    (setInterface ipv6 dev c).firewall = setFirewall wwan65g (setFirewall wwan5g c.firewall) := by
  rw [setInterface_eq]
  rfl

/-! ### Many calls -/

/-- The packages read the same. -/
structure Config.Same (c d : Config) : Prop where
  network : SamePackage c.network d.network
  firewall : c.firewall = d.firewall

theorem Config.Same.refl (c : Config) : c.Same c :=
  ⟨Uci.SamePackage.refl c.network, rfl⟩

theorem Config.Same.trans {c d e : Config} (hcd : c.Same d) (hde : d.Same e) : c.Same e :=
  ⟨hcd.network.trans hde.network, hcd.firewall.trans hde.firewall⟩

/-- **A call after a call reads as the second one alone.** -/
theorem setInterface_again (ipv6 dev ipv6' dev' : Word) (c : Config) :
    (setInterface ipv6' dev' (setInterface ipv6 dev c)).Same (setInterface ipv6' dev' c) where
  network := by
    rw [setInterface_network, setInterface_network, setInterface_network]
    exact Uci.run_blocks_again (shape_blocksOf dev dev') c.network
  firewall := by
    have hfour : Settled wwan5g (setFirewall wwan65g (setFirewall wwan5g c.firewall)) :=
      settled_setFirewall (settled_self wwan5g c.firewall) wwan65g
    have hsix : Settled wwan65g (setFirewall wwan65g (setFirewall wwan5g c.firewall)) :=
      settled_self wwan65g _
    rw [setInterface_firewall, setInterface_firewall, setInterface_firewall, hfour, hsix]

theorem dial_enabled {call : UciSection × List Word}
    (h : configGetBool call.1 "enabled" = ['1']) (c : Config) :
    dial c call = setInterface (dialVar call.1 "ipv6") (networkInterface call.2) c :=
  if_pos h

theorem dial_disabled {call : UciSection × List Word}
    (h : configGetBool call.1 "enabled" ≠ ['1']) (c : Config) : dial c call = c :=
  if_neg h

/-- **However often the service has been started before, with whatever sections and modems, the
packages read as after the last call alone.** -/
theorem dialAll_same (calls : List (UciSection × List Word)) {call : UciSection × List Word}
    (h : configGetBool call.1 "enabled" = ['1']) (c : Config) :
    (dialAll (calls ++ [call]) c).Same (dial c call) := by
  induction calls generalizing c with
  | nil => exact Config.Same.refl _
  | cons first calls ih =>
      have hstep : dialAll (first :: calls ++ [call]) c =
          dialAll (calls ++ [call]) (dial c first) := rfl
      rw [hstep]
      refine (ih (dial c first)).trans ?_
      by_cases hfirst : configGetBool first.1 "enabled" = ['1']
      · rw [dial_enabled hfirst, dial_enabled h, dial_enabled h]
        exact setInterface_again _ _ _ _ c
      · rw [dial_disabled hfirst]
        exact Config.Same.refl _

/-- The modem has been replaced by one with another network device. -/
theorem dialAll_same_replaced :
    (dialAll ([([("enabled", ['1'])], ["wwan0".toList])] ++
        [([("enabled", ['1']), ("ipv6", ['1'])], ["rmnet_mhi0".toList])]) ⟨[], usual⟩).Same
      (dial ⟨[], usual⟩ ([("enabled", ['1']), ("ipv6", ['1'])], ["rmnet_mhi0".toList])) :=
  dialAll_same _ rfl _

end Hypermodem

/-
**The link of IPv4 and its address.**

The network interface gets the IPv4 address that stands in the profile when the link is set up.
`requestGetIPAddress` clears the address and asks the modem for it; without a handle of the call it
asks nobody, and returns success all the same.  The loop has no handle of a call that it has not set
up itself.

* `QuectelCM.Addressed` — the link is up for IPv4 only while there is an address;
* `QuectelCM.Blank` — the check finds IPv4 connected, there is no address, and both times that it is
  fetched nothing comes;
* `QuectelCM.addressed_iff` — **the link is up with an address all along a run exactly when no check
  is blank**;
* `QuectelCM.not_addressed` — a call that was up before the program was started.
-/
import OpenwrtPackage.QuectelCM.Check

set_option relaxedAutoImplicit false
set_option autoImplicit false

namespace QuectelCM

/-! ### What should hold of the link -/

/-- When the loop calls `usbnet_link_change` with the bit of IPv4, the profile has an address. -/
def Addressed (w : ℕ) (s : Cm) (e : Event) : Prop :=
  ∀ link address, .usbnetLinkChange link address ∈ (handle w s e).2 → link.v4 = true → address ≠ 0

/-- The query leaves IPv4 connected: it says so, or it returns 0 and nothing else. -/
def StaysConnected (s : Cm) (i : CheckInput) : Prop :=
  reported i.queryIpv4 = some qwdsPktDataConnected ∨
    (qmiRspCheck i.queryIpv4 = .error 0 ∧ s.connectionStatus .v4 = qwdsPktDataConnected)

/-- IPv4 is connected, the profile has no address, and `requestGetIPAddress` brings none. -/
def BlankCheck (s : Cm) (i : CheckInput) : Prop :=
  Queried s .v4 ∧ StaysConnected s i ∧ s.profile.ipv4.address = 0 ∧
    fetched i.addressIpv4 (s.wdsConnectionHandle .v4) = some 0 ∧
    fetched i.checkIpv4 (s.wdsConnectionHandle .v4) = some 0

def Blank (s : Cm) : Event → Prop
  | .check i => BlankCheck s i
  | _ => False

/-! ### Checks -/

theorem staysConnected_iff (s : Cm) (i : CheckInput) :
    StaysConnected s i ↔ (queryDataCall s .v4 i.queryIpv4).1 = 0 ∧
      (reported i.queryIpv4).getD (s.connectionStatus .v4) = qwdsPktDataConnected := by
  rw [StaysConnected]
  cases hcheck : qmiRspCheck i.queryIpv4 with
  | error err =>
      rw [queryDataCall_ret_error hcheck, reported_error hcheck, Option.getD_none]
      simp
  | ok m =>
      rw [queryDataCall_ret_ok hcheck, reported_ok hcheck, Option.getD_some, Option.some.injEq]
      simp

theorem checkIpv6_profile (s : Cm) (i : CheckInput) : (checkIpv6 s i).1.profile = s.profile := by
  unfold checkIpv6
  split <;> rfl

/-- The address that a check has when it looks at the link. -/
theorem beforeLink_address {s : Cm} {i : CheckInput}
    (h : (beforeLink s i).connectionStatus .v4 = qwdsPktDataConnected) :
    Queried s .v4 ∧ StaysConnected s i ∧ AddressCheck s i ∧
      ∀ address ∈ ownAddress s i, (beforeLink s i).profile.ipv4.address = address := by
  rw [beforeLink_ipv4, checkIpv4_status] at h
  have hq : Queried s .v4 ∧ (queryDataCall s .v4 i.queryIpv4).1 = 0 := by
    by_contra hnot
    rw [if_neg hnot] at h
    exact absurd h (by decide)
  rw [if_pos hq] at h
  have hconn : (reported i.queryIpv4).getD (s.connectionStatus .v4) = qwdsPktDataConnected := by
    by_contra hnot
    rw [if_neg hnot] at h
    exact hnot h
  rw [if_pos hconn] at h
  have hcheck : AddressCheck s i := by
    by_contra hnot
    rw [if_neg hnot] at h
    exact absurd h (by decide)
  refine ⟨hq.1, (staysConnected_iff s i).2 ⟨hq.2, hconn⟩, hcheck, fun address haddr => ?_⟩
  obtain ⟨psAttachedState, hreg⟩ := checkRegistration_eq s i
  rw [beforeLink, checkIpv6_profile, hreg]
  exact (@checkIpv4_of_connected { s with psAttachedState := psAttachedState } i hq.1 hq.2
    hconn).2 hcheck address haddr

/-- The address check passes without an address when nothing is fetched twice. -/
theorem blank_iff (s : Cm) (i : CheckInput) :
    (AddressCheck s i ∧ ownAddress s i = some 0) ↔ s.profile.ipv4.address = 0 ∧
      fetched i.addressIpv4 (s.wdsConnectionHandle .v4) = some 0 ∧
      fetched i.checkIpv4 (s.wdsConnectionHandle .v4) = some 0 := by
  unfold AddressCheck ownAddress
  by_cases haddr : s.profile.ipv4.address = 0
  · rw [if_pos haddr]
    constructor
    · rintro ⟨⟨address, hown, hfetched⟩, hzero⟩
      obtain rfl : address = 0 := Option.some.inj (hown.symm.trans hzero)
      exact ⟨haddr, hzero, hfetched⟩
    · rintro ⟨-, hown, hfetched⟩
      exact ⟨⟨0, hown, hfetched⟩, hown⟩
  · rw [if_neg haddr]
    simp [haddr]

/-- A check that finds IPv4 connected sets the link up for it. -/
theorem link_of_connected {s : Cm} {i : CheckInput}
    (h : (beforeLink s i).connectionStatus .v4 = qwdsPktDataConnected) :
    ∃ link : Link, link.v4 = true ∧
      .usbnetLinkChange link (beforeLink s i).profile.ipv4.address ∈ (sigEventCheck s i).2 := by
  have hcall : ∀ (t : Cm) (link : Link),
      .usbnetLinkChange link t.profile.ipv4.address ∈ (usbnetLinkChange t link).2 := by
    intro t link
    unfold usbnetLinkChange
    dsimp only
    split <;> exact List.mem_cons_self ..
  refine ⟨⟨true, decide ((beforeLink s i).connectionStatus .v6 = qwdsPktDataConnected)⟩, rfl, ?_⟩
  unfold sigEventCheck
  refine List.mem_append_left _ (List.mem_append_right _ ?_)
  show _ ∈ (linkAfterCheck (beforeLink s i)).2
  have hconn : IsConnected (beforeLink s i) := .inl h
  unfold linkAfterCheck
  rw [if_neg fun hc => absurd (h.symm.trans hc.1) (by decide), if_pos hconn]
  simp only [h, decide_true]
  exact hcall _ _

/-- In a check the link is up with an address exactly when the check is not blank. -/
theorem addressed_check_iff (w : ℕ) (s : Cm) (i : CheckInput) :
    Addressed w s (.check i) ↔ ¬ BlankCheck s i := by
  constructor
  · rintro hall ⟨hq, hstays, hblank⟩
    obtain ⟨hcheck, hown⟩ := (blank_iff s i).2 hblank
    obtain ⟨hret, hconn⟩ := (staysConnected_iff s i).1 hstays
    have hstatus : (beforeLink s i).connectionStatus .v4 = qwdsPktDataConnected := by
      rw [beforeLink_ipv4, (checkIpv4_of_connected hq hret hconn).1, if_pos hcheck]
    obtain ⟨link, hlink, hmem⟩ := link_of_connected hstatus
    exact hall link _ (List.mem_cons_of_mem _ hmem) hlink
      ((beforeLink_address hstatus).2.2.2 0 hown)
  · intro hnot link address hmem hlink haddr
    have hmem : .usbnetLinkChange link address ∈ (sigEventCheck s i).2 := by
      rcases List.mem_cons.1 hmem with heq | hmem
      · exact Action.noConfusion heq
      · exact hmem
    obtain ⟨h4, -, haddress⟩ := sigEventCheck_link hmem
    have hstatus : (beforeLink s i).connectionStatus .v4 = qwdsPktDataConnected :=
      of_decide_eq_true (h4.symm.trans hlink)
    obtain ⟨hq, hstays, hcheck, hown⟩ := beforeLink_address hstatus
    obtain ⟨own, hmemOwn, hfetched⟩ := hcheck
    have hzero : own = 0 := (hown own hmemOwn).symm.trans (haddress.symm.trans haddr)
    subst hzero
    exact hnot ⟨hq, hstays, (blank_iff s i).1 ⟨⟨0, hmemOwn, hfetched⟩, hmemOwn⟩⟩

/-! ### Other events -/

/-- Everywhere else the link is set down. -/
theorem not_mem_down {s : Cm} {link : Link} {address : UInt32}
    (h : .usbnetLinkChange link address ∈ (usbnetLinkChange s .down).2) : link.v4 = false := by
  unfold usbnetLinkChange at h
  dsimp only at h
  split at h
  · obtain ⟨rfl, -⟩ : link = .down ∧ address = s.profile.ipv4.address := by simpa using h
    rfl
  · obtain ⟨rfl, -⟩ : link = .down ∧ address = s.profile.ipv4.address := by simpa using h
    rfl

/-- A start does nothing but setting up calls and the alarm. -/
theorem not_mem_start (w : ℕ) (s : Cm) (i : StartInput) (link : Link) (address : UInt32) :
    .usbnetLinkChange link address ∉ (sigEventStart w s i).2 := by
  have hback : ∀ t : Cm, .usbnetLinkChange link address ∉ (backOff w t i.finished).2 := by
    intro t
    unfold backOff
    split
    · simp
    · split <;> exact List.not_mem_nil
  unfold sigEventStart
  split
  · exact List.not_mem_nil
  · split
    · simp
    · dsimp only
      intro hc
      rcases List.mem_append.1 hc with hc | hc
      · exact (List.mem_append.1 hc).elim ((startIpv4_about s i).not_mem_link _ _)
          ((startIpv6_about _ i).not_mem_link _ _)
      · exact hback _ hc

/-- A stop sets the link down. -/
theorem sigEventStop_link {s : Cm} {i : StopInput} {link : Link} {address : UInt32}
    (h : .usbnetLinkChange link address ∈ (sigEventStop s i).2) : link.v4 = false := by
  unfold sigEventStop at h
  dsimp only at h
  rcases List.mem_append.1 h with h | h
  · rcases List.mem_append.1 h with h | h
    · rcases List.mem_append.1 h with h | h
      · exact ((List.mem_append.1 h).elim ((stopFamily_about _ _ _).not_mem_link _ _)
          ((stopFamily_about _ _ _).not_mem_link _ _)).elim
      · exact not_mem_down h
    · simp at h
  · exact not_mem_down h

/-- Only a check sets the link up. -/
theorem addressed_of_not_check (w : ℕ) (s : Cm) {e : Event} (he : ∀ i, e ≠ .check i) :
    Addressed w s e := by
  intro link address hmem hlink
  suffices hdown : link.v4 = false by
    rw [hdown] at hlink
    exact Bool.noConfusion hlink
  cases e with
  | check i => exact absurd rfl (he i)
  | start i =>
      rcases List.mem_cons.1 hmem with heq | hmem
      · exact Action.noConfusion heq
      · exact (not_mem_start w s i link address hmem).elim
  | stop i =>
      rcases List.mem_cons.1 hmem with heq | hmem
      · exact Action.noConfusion heq
      · exact sigEventStop_link hmem
  | deviceDisconnected => exact (List.mem_append.1 hmem).elim not_mem_down not_mem_down
  | voiceNetworkStateChanged psAttachedState now =>
      exfalso
      simp only [handle, voiceNetworkStateChanged] at hmem
      split at hmem
      · split at hmem <;> simp at hmem
      · exact List.not_mem_nil hmem
  | dataCallListChanged now => simp [handle, dataCallListChanged] at hmem
  | modemReportReset =>
      rcases List.mem_cons.1 hmem with heq | hmem
      · exact Action.noConfusion heq
      · exact not_mem_down hmem
  | loopbackConfigInd loopbackState =>
      exfalso
      simp only [handle] at hmem
      split at hmem <;> simp at hmem
  | hangup =>
      rcases List.mem_cons.1 hmem with heq | hmem
      · exact Action.noConfusion heq
      · exact not_mem_down hmem

/-! ### Whole runs -/

/-- **The link is up for IPv4 only while there is an address, all along a run, exactly when no check
of the run is blank.** -/
theorem addressed_iff (w : ℕ) (profile : Profile) (psAttachedState : UInt8) (sLink : Option Link)
    (wdsConnectionHandle : IpFamily → UInt32) (now : ℕ) (evs : List Event) :
    (∀ m ∈ EventRun.moves (step w)
        (start w profile psAttachedState sLink wdsConnectionHandle now) evs,
        Addressed w m.1 m.2) ↔
      ∀ m ∈ EventRun.moves (step w)
        (start w profile psAttachedState sLink wdsConnectionHandle now) evs, ¬ Blank m.1 m.2 := by
  have hone : ∀ (s : Cm) (e : Event), Addressed w s e ↔ ¬ Blank s e := by
    intro s e
    by_cases he : ∃ i, e = .check i
    · obtain ⟨i, rfl⟩ := he
      exact addressed_check_iff w s i
    · have hblank : ¬ Blank s e := by
        cases e with
        | check i => exact absurd ⟨i, rfl⟩ he
        | _ => exact id
      exact ⟨fun _ => hblank, fun _ => addressed_of_not_check w s fun i hi => he ⟨i, hi⟩⟩
  exact forall₂_congr fun m _ => hone m.1 m.2

/-- The modem says that the call is connected. -/
def connectedResp : List UInt8 :=
  [0x01, 23, 0, 0x80, 0x01, 1, 0x02, 1, 0, 0x22, 0, 11, 0, 0x02, 4, 0, 0, 0, 0, 0, 0x01, 1, 0, 2]

/-- The program is started while a call is up: the link goes up without an address. -/
theorem not_addressed : ¬ ∀ (profile : Profile) (evs : List Event),
    ∀ m ∈ EventRun.moves (step 64) (start 64 profile 1 none (fun _ => 0) 0) evs,
      Addressed 64 m.1 m.2 := by
  intro hall
  let i : CheckInput :=
    ⟨1, .response connectedResp, .failed 110, .failed 110, .failed 110, .failed 110⟩
  have hmove := hall (.default true false) [.check i] (_, _) (List.mem_cons_self ..)
  exact hmove ⟨true, false⟩ 0 (by decide +kernel) rfl rfl

end QuectelCM

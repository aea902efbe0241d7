/-
**What a check says about the calls.**

`SIG_EVENT_CHECK` asks the modem for the state of the call of each family, sets the link of the
network interface, and dials again when a family is not connected.  For IPv4 a failed query counts
as disconnected; for IPv6 the result of the query is not looked at, and the status of before stays.
The status is the byte that the modem sends, and a third value is neither connected nor
disconnected.

Main definitions:

* `QuectelCM.Confirmed` — the query of this check has said that the family is connected;
* `QuectelCM.Checked` — after the check a family is connected when it is confirmed, and disconnected
  otherwise; the link and the redial follow;
* `QuectelCM.Answered` — the answers that the code expects.

Main results:

* `QuectelCM.checkIpv4_status`, `QuectelCM.checkIpv6_status` — the status after a check;
* `QuectelCM.ipv4_right_iff`, `QuectelCM.ipv6_right_iff` — one family in one check;
* `QuectelCM.checked_iff` — **the checks of a run are right exactly when each query of a family that
  is not known to be disconnected says connected or disconnected**;
* `QuectelCM.not_checked` — a query for IPv6 that fails.
-/
import OpenwrtPackage.Lib.EventRun
import OpenwrtPackage.QuectelCM.Main

set_option relaxedAutoImplicit false
set_option autoImplicit false

namespace QuectelCM

/-! ### What should hold of a check -/

/-- The query has returned 0 and reported this status. -/
def reported (a : Answer) : Option UInt8 :=
  match qmiRspCheck a with
  | .error _ => none
  | .ok m => some (pktSrvcStatus m)

/-- The IPv4 address after `requestGetIPAddress` when that returns 0.  Without a handle, without an
address in the response, and when there is neither a response nor an error, it is 0. -/
def fetched (a : Answer) (handle : UInt32) : Option UInt32 :=
  if handle = 0 then some 0
  else
    match qmiRspCheck a with
    | .error err => if err = 0 then some 0 else none
    | .ok m => some (tlvUlong m 0x1E 0)

/-- The IPv4 address before it is compared: it is fetched when there is none. -/
def ownAddress (s : Cm) (i : CheckInput) : Option UInt32 :=
  if s.profile.ipv4.address = 0 then fetched i.addressIpv4 (s.wdsConnectionHandle .v4)
  else some s.profile.ipv4.address

/-- The address check of IPv4: there is an address, or it can be fetched, and the modem gives the
same. -/
def AddressCheck (s : Cm) (i : CheckInput) : Prop :=
  ∃ address ∈ ownAddress s i, fetched i.checkIpv4 (s.wdsConnectionHandle .v4) = some address

instance (s : Cm) (i : CheckInput) : Decidable (AddressCheck s i) :=
  decidable_of_iff (ownAddress s i ≠ none ∧
    fetched i.checkIpv4 (s.wdsConnectionHandle .v4) = ownAddress s i) (by
      unfold AddressCheck
      cases ownAddress s i <;> simp)

/-- The query of this check has said that the family is connected, and its address check has
passed. -/
def Confirmed (s : Cm) (i : CheckInput) : IpFamily → Prop
  | .v4 =>
      Queried s .v4 ∧ reported i.queryIpv4 = some qwdsPktDataConnected ∧ AddressCheck s i
  | .v6 => Queried s .v6 ∧ reported i.queryIpv6 = some qwdsPktDataConnected

instance (s : Cm) (i : CheckInput) : (f : IpFamily) → Decidable (Confirmed s i f)
  | .v4 => inferInstanceAs (Decidable (_ ∧ _ ∧ _))
  | .v6 => inferInstanceAs (Decidable (_ ∧ _))

/-- A check has come to the right end. -/
structure CheckedBy (s : Cm) (i : CheckInput) : Prop where
  status : ∀ f, s.profile.enable f = true → (sigEventCheck s i).1.connectionStatus f =
    if Confirmed s i f then qwdsPktDataConnected else qwdsPktDataDisconnected
  /-- the link is up for a family only when that is confirmed -/
  link : ∀ link address, .usbnetLinkChange link address ∈ (sigEventCheck s i).2 →
    (link.v4 = true → Confirmed s i .v4) ∧ (link.v6 = true → Confirmed s i .v6)
  /-- the loop dials again when a family is not confirmed -/
  redial : (∃ f, s.profile.enable f = true ∧ ¬ Confirmed s i f) →
    .sendStart ∈ (sigEventCheck s i).2

def Checked (s : Cm) : Event → Prop
  | .check i => CheckedBy s i
  | _ => True

/-- The answers of a check: for each family that is not known to be disconnected the modem says
connected or disconnected.  For IPv4 a query that returns an error will do, and one that returns 0
and nothing else when the family was connected and the address check fails. -/
structure AnsweredBy (s : Cm) (i : CheckInput) : Prop where
  ipv4 : Queried s .v4 → ∀ status ∈ reported i.queryIpv4,
    status = qwdsPktDataConnected ∨ status = qwdsPktDataDisconnected
  ipv4_silent : Queried s .v4 → qmiRspCheck i.queryIpv4 = .error 0 →
    s.connectionStatus .v4 = qwdsPktDataConnected ∧ ¬ AddressCheck s i
  ipv6 : Queried s .v6 → reported i.queryIpv6 = some qwdsPktDataConnected ∨
    reported i.queryIpv6 = some qwdsPktDataDisconnected

def Answered (s : Cm) : Event → Prop
  | .check i => AnsweredBy s i
  | _ => True

/-! ### The status after a check -/

section

variable {s : Cm} {f : IpFamily} {a : Answer} {err : ℤ} {m : List UInt8}

theorem reported_error (h : qmiRspCheck a = .error err) : reported a = none := by
  rw [reported, h]

theorem reported_ok (h : qmiRspCheck a = .ok m) : reported a = some (pktSrvcStatus m) := by
  rw [reported, h]

/-- What a query returns. -/
theorem queryDataCall_ret_error (h : qmiRspCheck a = .error err) :
    (queryDataCall s f a).1 = err := by
  rw [queryDataCall, requestQueryDataCall, h]

theorem queryDataCall_ret_ok (h : qmiRspCheck a = .ok m) : (queryDataCall s f a).1 = 0 := by
  rw [queryDataCall, requestQueryDataCall, h]

end

/-- What a query makes of the status. -/
theorem queryDataCall_status (s : Cm) (f : IpFamily) (a : Answer) :
    (queryDataCall s f a).2.1.connectionStatus f = (reported a).getD (s.connectionStatus f) := by
  have hstatus : (queryDataCall s f a).2.1.connectionStatus f =
      (requestQueryDataCall a (s.connectionStatus f) (s.wdsConnectionHandle f)).2.1 :=
    setStatus_self ..
  rw [hstatus]
  cases hcheck : qmiRspCheck a with
  | error err => rw [requestQueryDataCall, hcheck, reported_error hcheck, Option.getD_none]
  | ok m => rw [requestQueryDataCall, hcheck, reported_ok hcheck, Option.getD_some]

/-- A query that leaves the family connected leaves the handle and the profile alone. -/
theorem queryDataCall_connected {s : Cm} {f : IpFamily} {a : Answer}
    (h : (queryDataCall s f a).2.1.connectionStatus f = qwdsPktDataConnected) :
    (queryDataCall s f a).2.1.wdsConnectionHandle f = s.wdsConnectionHandle f := by
  unfold queryDataCall requestQueryDataCall at h ⊢
  cases hcheck : qmiRspCheck a with
  | error err => simp
  | ok m =>
      rw [hcheck] at h
      simp only [setHandle_status, setStatus_self] at h
      simp [h, qwdsPktDataConnected, qwdsPktDataDisconnected]

theorem getIPAddress_fetched (s : Cm) (a : Answer) :
    fetched a (s.wdsConnectionHandle .v4) =
      if (getIPAddress s .v4 a).1 = 0 then some (getIPAddress s .v4 a).2.profile.ipv4.address
      else none := by
  unfold getIPAddress requestGetIPAddress fetched
  by_cases hh : s.wdsConnectionHandle .v4 = 0
  · rw [if_pos hh]
    simp only [if_pos hh]
    rfl
  · rw [if_neg hh]
    simp only [if_neg hh]
    cases qmiRspCheck a with
    | error err =>
        dsimp only
        split <;> rfl
    | ok m => rfl

/-- A family that is not connected is left alone by the address check. -/
theorem compareAddress_fetchAddress_of_ne {s : Cm} {i : CheckInput}
    (h : s.connectionStatus .v4 ≠ qwdsPktDataConnected) :
    (compareAddress (fetchAddress s i.addressIpv4) i).1 = s := by
  have hfetch : fetchAddress s i.addressIpv4 = s := if_neg fun hc => h hc.1
  rw [hfetch, compareAddress, if_neg h]

/-- A family that is connected, and has an address, stays so when the modem gives the same. -/
theorem compareAddress_of_connected {s : Cm} {i : CheckInput}
    (h : s.connectionStatus .v4 = qwdsPktDataConnected) :
    (compareAddress s i).1.connectionStatus .v4 =
        (if fetched i.checkIpv4 (s.wdsConnectionHandle .v4) = some s.profile.ipv4.address then
          qwdsPktDataConnected else qwdsPktDataDisconnected) ∧
      (fetched i.checkIpv4 (s.wdsConnectionHandle .v4) = some s.profile.ipv4.address →
        (compareAddress s i).1.profile.ipv4.address = s.profile.ipv4.address) := by
  have hfetched := getIPAddress_fetched s i.checkIpv4
  unfold compareAddress checkIpv4Address
  rw [if_pos h, hfetched]
  dsimp only
  by_cases hret : (getIPAddress s .v4 i.checkIpv4).1 = 0
  · by_cases hsame : (getIPAddress s .v4 i.checkIpv4).2.profile.ipv4.address =
        s.profile.ipv4.address
    · have hstay : (getIPAddress s .v4 i.checkIpv4).2.connectionStatus .v4 =
          qwdsPktDataConnected := h
      simp [hret, hsame, hstay]
    · simp [hret, hsame]
  · simp [hret]

/-- The address check of a family that is connected. -/
theorem addressCheck_of_connected {s : Cm} {i : CheckInput}
    (h : s.connectionStatus .v4 = qwdsPktDataConnected) :
    (compareAddress (fetchAddress s i.addressIpv4) i).1.connectionStatus .v4 =
        (if AddressCheck s i then qwdsPktDataConnected else qwdsPktDataDisconnected) ∧
      (AddressCheck s i → ∀ address ∈ ownAddress s i,
        (compareAddress (fetchAddress s i.addressIpv4) i).1.profile.ipv4.address = address) := by
  by_cases haddr : s.profile.ipv4.address = 0
  · -- the address is fetched first
    have hown : ownAddress s i = fetched i.addressIpv4 (s.wdsConnectionHandle .v4) := if_pos haddr
    rw [getIPAddress_fetched] at hown
    unfold fetchAddress
    rw [if_pos ⟨h, haddr⟩]
    by_cases hret : (getIPAddress s .v4 i.addressIpv4).1 = 0
    · have hconn : (getIPAddress s .v4 i.addressIpv4).2.connectionStatus .v4 =
          qwdsPktDataConnected := h
      have hhandle : (getIPAddress s .v4 i.addressIpv4).2.wdsConnectionHandle .v4 =
          s.wdsConnectionHandle .v4 := rfl
      obtain ⟨hstatus, hsame⟩ :=
        @compareAddress_of_connected (getIPAddress s .v4 i.addressIpv4).2 i hconn
      rw [if_pos hret] at hown
      rw [hhandle] at hstatus hsame
      dsimp only
      rw [if_neg (not_not.2 hret), hstatus]
      simp only [AddressCheck, hown, Option.mem_def, Option.some.injEq, exists_eq_left', true_and]
      exact fun hcheck address heq => heq ▸ hsame hcheck
    · rw [if_neg hret] at hown
      dsimp only
      rw [if_pos hret, compareAddress, if_neg (by rw [setStatus_self]; decide)]
      simp [AddressCheck, hown]
  · have hfetch : fetchAddress s i.addressIpv4 = s := if_neg fun hc => haddr hc.2
    have hown : ownAddress s i = some s.profile.ipv4.address := if_neg haddr
    obtain ⟨hstatus, hsame⟩ := @compareAddress_of_connected s i h
    rw [hfetch, hstatus]
    simp only [AddressCheck, hown, Option.mem_def, Option.some.injEq, exists_eq_left', true_and]
    exact fun hcheck address heq => heq ▸ hsame hcheck

/-- IPv4 after a query that leaves it connected: it stays so when the address check passes, and then
it has its address. -/
theorem checkIpv4_of_connected {s : Cm} {i : CheckInput} (hq : Queried s .v4)
    (hret : (queryDataCall s .v4 i.queryIpv4).1 = 0)
    (hconn : (reported i.queryIpv4).getD (s.connectionStatus .v4) = qwdsPktDataConnected) :
    (checkIpv4 s i).1.connectionStatus .v4 =
        (if AddressCheck s i then qwdsPktDataConnected else qwdsPktDataDisconnected) ∧
      (AddressCheck s i → ∀ address ∈ ownAddress s i,
        (checkIpv4 s i).1.profile.ipv4.address = address) := by
  rw [← queryDataCall_status] at hconn
  have hhandle := queryDataCall_connected hconn
  have hown : ownAddress (queryDataCall s .v4 i.queryIpv4).2.1 i = ownAddress s i := by
    unfold ownAddress
    rw [hhandle]
    rfl
  have hcheck : AddressCheck (queryDataCall s .v4 i.queryIpv4).2.1 i ↔ AddressCheck s i := by
    unfold AddressCheck
    rw [hown, hhandle]
  have hparts := @addressCheck_of_connected _ i hconn
  unfold checkIpv4
  rw [if_pos hq]
  dsimp only
  rw [if_pos hret, hparts.1]
  simp only [hcheck, hown] at hparts ⊢
  exact ⟨trivial, hparts.2⟩

/-- The status of IPv4 after its part of a check. -/
theorem checkIpv4_status (s : Cm) (i : CheckInput) :
    (checkIpv4 s i).1.connectionStatus .v4 =
      if Queried s .v4 ∧ (queryDataCall s .v4 i.queryIpv4).1 = 0 then
        if (reported i.queryIpv4).getD (s.connectionStatus .v4) = qwdsPktDataConnected then
          if AddressCheck s i then qwdsPktDataConnected else qwdsPktDataDisconnected
        else (reported i.queryIpv4).getD (s.connectionStatus .v4)
      else qwdsPktDataDisconnected := by
  by_cases hq : Queried s .v4
  · by_cases hret : (queryDataCall s .v4 i.queryIpv4).1 = 0
    · rw [if_pos ⟨hq, hret⟩]
      by_cases hconn : (reported i.queryIpv4).getD (s.connectionStatus .v4) =
          qwdsPktDataConnected
      · rw [if_pos hconn, (checkIpv4_of_connected hq hret hconn).1]
      · rw [if_neg hconn, ← queryDataCall_status]
        rw [← queryDataCall_status] at hconn
        rw [checkIpv4, if_pos hq]
        dsimp only
        rw [if_pos hret]
        exact congrArg (·.connectionStatus .v4) (compareAddress_fetchAddress_of_ne hconn)
    · rw [if_neg fun hc => hret hc.2, checkIpv4, if_pos hq]
      dsimp only
      rw [if_neg hret]
      exact setStatus_self ..
  · rw [if_neg fun hc => hq hc.1, checkIpv4, if_neg hq]
    exact setStatus_self ..

/-- The status of IPv6 after its part of a check. -/
theorem checkIpv6_status (s : Cm) (i : CheckInput) :
    (checkIpv6 s i).1.connectionStatus .v6 =
      if Queried s .v6 then (reported i.queryIpv6).getD (s.connectionStatus .v6)
      else qwdsPktDataDisconnected := by
  unfold checkIpv6
  by_cases hq : Queried s .v6
  · rw [if_pos hq, if_pos hq]
    exact queryDataCall_status s .v6 i.queryIpv6
  · rw [if_neg hq, if_neg hq]
    exact setStatus_self ..

/-! ### The whole check -/

theorem checkRegistration_eq (s : Cm) (i : CheckInput) :
    ∃ psAttachedState, checkRegistration s i = { s with psAttachedState := psAttachedState } := by
  unfold checkRegistration
  split
  · exact ⟨i.psAttachedState, rfl⟩
  · exact ⟨s.psAttachedState, rfl⟩

theorem linkAfterCheck_status (s : Cm) :
    (linkAfterCheck s).1.connectionStatus = s.connectionStatus := by
  unfold linkAfterCheck
  split
  · exact usbnetLinkChange_status ..
  · split
    · exact usbnetLinkChange_status ..
    · rfl

theorem linkAfterCheck_enable (s : Cm) (f : IpFamily) :
    (linkAfterCheck s).1.profile.enable f = s.profile.enable f := by
  unfold linkAfterCheck
  split
  · exact (usbnetLinkChange_touches s _ f).enable f
  · split
    · exact (usbnetLinkChange_touches s _ f).enable f
    · rfl

/-- The state in which a check looks at the link. -/
def beforeLink (s : Cm) (i : CheckInput) : Cm :=
  (checkIpv6 (checkIpv4 (checkRegistration s i) i).1 i).1

theorem beforeLink_enable (s : Cm) (i : CheckInput) (f : IpFamily) :
    (beforeLink s i).profile.enable f = s.profile.enable f :=
  ((checkIpv6_touches _ i).enable f).trans (((checkIpv4_touches _ i).enable f).trans
    ((checkRegistration_touches s i f).enable f))

theorem beforeLink_ipv4 (s : Cm) (i : CheckInput) :
    (beforeLink s i).connectionStatus .v4 = (checkIpv4 s i).1.connectionStatus .v4 := by
  obtain ⟨psAttachedState, hreg⟩ := checkRegistration_eq s i
  rw [beforeLink, (checkIpv6_touches _ i).status .v4 (by decide), hreg, checkIpv4_status,
    checkIpv4_status]
  rfl

theorem beforeLink_ipv6 (s : Cm) (i : CheckInput) :
    (beforeLink s i).connectionStatus .v6 =
      if Queried s .v6 then (reported i.queryIpv6).getD (s.connectionStatus .v6)
      else qwdsPktDataDisconnected := by
  have hstatus : (checkIpv4 (checkRegistration s i) i).1.connectionStatus .v6 =
      s.connectionStatus .v6 :=
    ((checkIpv4_touches _ i).status .v6 (by decide)).trans
      ((checkRegistration_touches s i .v4).status .v6 (by decide))
  have henable : (checkIpv4 (checkRegistration s i) i).1.profile.enable .v6 =
      s.profile.enable .v6 :=
    ((checkIpv4_touches _ i).enable .v6).trans ((checkRegistration_touches s i .v4).enable .v6)
  have hqueried : Queried (checkIpv4 (checkRegistration s i) i).1 .v6 ↔ Queried s .v6 := by
    rw [Queried, Queried, hstatus, henable]
  rw [beforeLink, checkIpv6_status, hstatus]
  by_cases hq : Queried s .v6
  · rw [if_pos hq, if_pos (hqueried.2 hq)]
  · rw [if_neg hq, if_neg fun hc => hq (hqueried.1 hc)]

theorem sigEventCheck_status (s : Cm) (i : CheckInput) :
    (sigEventCheck s i).1.connectionStatus = (beforeLink s i).connectionStatus :=
  linkAfterCheck_status _

/-- The link that `usbnet_link_change` is called with has the bits of the connected families. -/
theorem linkAfterCheck_link {s : Cm} {link : Link} {address : UInt32}
    (h : .usbnetLinkChange link address ∈ (linkAfterCheck s).2) :
    link.v4 = decide (s.connectionStatus .v4 = qwdsPktDataConnected) ∧
      link.v6 = decide (s.connectionStatus .v6 = qwdsPktDataConnected) ∧
      address = s.profile.ipv4.address := by
  have hcall : ∀ l : Link, .usbnetLinkChange link address ∈ (usbnetLinkChange s l).2 →
      link = l ∧ address = s.profile.ipv4.address := by
    intro l hmem
    unfold usbnetLinkChange at hmem
    dsimp only at hmem
    split at hmem
    · simpa using hmem
    · rcases List.mem_cons.1 hmem with hcall | hdhcp
      · simpa using hcall
      · split at hdhcp <;> simp at hdhcp
  unfold linkAfterCheck at h
  split at h
  · rename_i hdown
    obtain ⟨rfl, haddr⟩ := hcall _ h
    rw [hdown.1, hdown.2]
    exact ⟨rfl, rfl, haddr⟩
  · split at h
    · obtain ⟨rfl, haddr⟩ := hcall _ h
      exact ⟨rfl, rfl, haddr⟩
    · exact absurd h List.not_mem_nil

/-- A check calls `usbnet_link_change` once at most, with the bits of the connected families. -/
theorem sigEventCheck_link {s : Cm} {i : CheckInput} {link : Link} {address : UInt32}
    (h : .usbnetLinkChange link address ∈ (sigEventCheck s i).2) :
    link.v4 = decide ((beforeLink s i).connectionStatus .v4 = qwdsPktDataConnected) ∧
      link.v6 = decide ((beforeLink s i).connectionStatus .v6 = qwdsPktDataConnected) ∧
      address = (beforeLink s i).profile.ipv4.address := by
  unfold sigEventCheck at h
  dsimp only at h
  rcases List.mem_append.1 h with h | h
  · rcases List.mem_append.1 h with h | h
    · rcases List.mem_append.1 h with h | h
      · exact ((checkIpv4_about _ i).not_mem_link _ _ h).elim
      · exact ((checkIpv6_about _ i).not_mem_link _ _ h).elim
    · exact linkAfterCheck_link h
  · split at h <;> simp at h

/-- A check dials again when a family is disconnected. -/
theorem sigEventCheck_redial {s : Cm} {i : CheckInput} {f : IpFamily}
    (henable : s.profile.enable f = true)
    (hdown : (sigEventCheck s i).1.connectionStatus f = qwdsPktDataDisconnected) :
    .sendStart ∈ (sigEventCheck s i).2 := by
  have hen : (sigEventCheck s i).1.profile.enable f = true :=
    ((linkAfterCheck_enable _ f).trans (beforeLink_enable s i f)).trans henable
  have hany : (sigEventCheck s i).1.anyEnabled qwdsPktDataDisconnected = true := by
    cases f <;> simp_all [Cm.anyEnabled, Profile.enable]
  unfold sigEventCheck at hany ⊢
  dsimp only at hany ⊢
  rw [if_pos hany]
  exact List.mem_append_right _ (List.mem_singleton.2 rfl)

/-! ### When a check comes to the right end -/

/-- IPv4 after a query that the modem answers. -/
theorem checkIpv4_ok {s : Cm} {i : CheckInput} {m : List UInt8} (hq : Queried s .v4)
    (hok : qmiRspCheck i.queryIpv4 = .ok m) :
    (checkIpv4 s i).1.connectionStatus .v4 =
      if pktSrvcStatus m = qwdsPktDataConnected then
        if AddressCheck s i then qwdsPktDataConnected else qwdsPktDataDisconnected
      else pktSrvcStatus m := by
  rw [checkIpv4_status, if_pos ⟨hq, queryDataCall_ret_ok hok⟩, reported_ok hok, Option.getD_some]

/-- IPv4 after a query that returns an error. -/
theorem checkIpv4_error {s : Cm} {i : CheckInput} {err : ℤ} (hq : Queried s .v4)
    (herr : qmiRspCheck i.queryIpv4 = .error err) :
    (checkIpv4 s i).1.connectionStatus .v4 =
      if err = 0 then
        if s.connectionStatus .v4 = qwdsPktDataConnected then
          if AddressCheck s i then qwdsPktDataConnected else qwdsPktDataDisconnected
        else s.connectionStatus .v4
      else qwdsPktDataDisconnected := by
  rw [checkIpv4_status, queryDataCall_ret_error herr, reported_error herr, Option.getD_none]
  by_cases h0 : err = 0
  · rw [if_pos ⟨hq, h0⟩, if_pos h0]
  · rw [if_neg fun hc => h0 hc.2, if_neg h0]

/-- When IPv4 comes to the right end. -/
theorem ipv4_right_iff (s : Cm) (i : CheckInput) :
    ((checkIpv4 s i).1.connectionStatus .v4 =
        if Confirmed s i .v4 then qwdsPktDataConnected else qwdsPktDataDisconnected) ↔
      (Queried s .v4 → (∀ status ∈ reported i.queryIpv4,
          status = qwdsPktDataConnected ∨ status = qwdsPktDataDisconnected) ∧
        (qmiRspCheck i.queryIpv4 = .error 0 →
          s.connectionStatus .v4 = qwdsPktDataConnected ∧ ¬ AddressCheck s i)) := by
  by_cases hq : Queried s .v4
  · cases hcheck : qmiRspCheck i.queryIpv4 with
    | ok m =>
        have hreported := reported_ok hcheck
        rw [checkIpv4_ok hq hcheck]
        by_cases hst : pktSrvcStatus m = qwdsPktDataConnected
        · have hconf : Confirmed s i .v4 ↔ AddressCheck s i := by
            simp [Confirmed, hq, hreported, hst]
          rw [if_pos hst]
          by_cases hcheck' : AddressCheck s i
          · simp [hcheck', hconf.2 hcheck', hreported, hst]
          · have hnot : ¬ Confirmed s i .v4 := fun hc => hcheck' (hconf.1 hc)
            simp [hcheck', hnot, hreported, hst]
        · have hconf : ¬ Confirmed s i .v4 := by
            simp [Confirmed, hreported, hst]
          rw [if_neg hst, if_neg hconf]
          simp [hq, hreported, hst]
    | error err =>
        have hreported := reported_error hcheck
        have hconf : ¬ Confirmed s i .v4 := by
          simp [Confirmed, hreported]
        rw [checkIpv4_error hq hcheck, if_neg hconf]
        by_cases h0 : err = 0
        · subst h0
          by_cases hconn : s.connectionStatus .v4 = qwdsPktDataConnected
          · by_cases hcheck' : AddressCheck s i
            · simp [hq, hconn, hcheck', hreported, qwdsPktDataConnected, qwdsPktDataDisconnected]
            · simp [hconn, hcheck', hreported]
          · simp [hq, hq.2, hconn, hreported]
        · simp [h0, hreported]
  · have hstatus : (checkIpv4 s i).1.connectionStatus .v4 = qwdsPktDataDisconnected := by
      rw [checkIpv4_status, if_neg fun hc => hq hc.1]
    have hconf : ¬ Confirmed s i .v4 := fun hc => hq hc.1
    rw [hstatus, if_neg hconf]
    exact ⟨fun _ hc => absurd hc hq, fun _ => rfl⟩

/-- When IPv6 comes to the right end. -/
theorem ipv6_right_iff (s : Cm) (i : CheckInput) :
    ((beforeLink s i).connectionStatus .v6 =
        if Confirmed s i .v6 then qwdsPktDataConnected else qwdsPktDataDisconnected) ↔
      (Queried s .v6 → reported i.queryIpv6 = some qwdsPktDataConnected ∨
        reported i.queryIpv6 = some qwdsPktDataDisconnected) := by
  rw [beforeLink_ipv6]
  by_cases hq : Queried s .v6
  · rw [if_pos hq]
    cases hreported : reported i.queryIpv6 with
    | none =>
        have hconf : ¬ Confirmed s i .v6 := by
          simp [Confirmed, hreported]
        rw [if_neg hconf]
        simp [hq, hq.2]
    | some status =>
        by_cases hst : status = qwdsPktDataConnected
        · have hconf : Confirmed s i .v6 := ⟨hq, hst ▸ hreported⟩
          simp [hconf, hst]
        · have hconf : ¬ Confirmed s i .v6 := by
            simp [Confirmed, hreported, hst]
          rw [if_neg hconf]
          simp [hq, hst]
  · have hconf : ¬ Confirmed s i .v6 := fun hc => hq hc.1
    rw [if_neg hq, if_neg hconf]
    exact ⟨fun _ hc => absurd hc hq, fun _ => rfl⟩

/-- When the status of each family that is asked for is right, so are the link and the redial. -/
theorem checkedBy_of_status {s : Cm} {i : CheckInput}
    (h : ∀ f, s.profile.enable f = true → (sigEventCheck s i).1.connectionStatus f =
      if Confirmed s i f then qwdsPktDataConnected else qwdsPktDataDisconnected) :
    CheckedBy s i := by
  refine ⟨h, fun link address hlink => ?_, ?_⟩
  · -- a family that is not asked for is disconnected
    have hconn : ∀ f, (beforeLink s i).connectionStatus f = qwdsPktDataConnected →
        Confirmed s i f := by
      intro f hf
      by_cases henable : s.profile.enable f = true
      · have hstatus := h f henable
        rw [sigEventCheck_status, hf] at hstatus
        by_contra hnot
        rw [if_neg hnot] at hstatus
        exact absurd hstatus (by decide)
      · exfalso
        have hq : ¬ Queried s f := fun hq => henable hq.1
        cases f with
        | v4 =>
            rw [beforeLink_ipv4, checkIpv4_status, if_neg fun hc => hq hc.1] at hf
            exact absurd hf (by decide)
        | v6 =>
            rw [beforeLink_ipv6, if_neg hq] at hf
            exact absurd hf (by decide)
    obtain ⟨h4, h6, -⟩ := sigEventCheck_link hlink
    refine ⟨fun hl => hconn .v4 ?_, fun hl => hconn .v6 ?_⟩
    · exact of_decide_eq_true (h4.symm.trans hl)
    · exact of_decide_eq_true (h6.symm.trans hl)
  · rintro ⟨f, henable, hnot⟩
    refine sigEventCheck_redial henable ?_
    rw [h f henable, if_neg hnot]

/-- A check comes to the right end exactly when the modem answers as the code expects. -/
theorem checkedBy_iff (s : Cm) (i : CheckInput) : CheckedBy s i ↔ AnsweredBy s i := by
  constructor
  · intro h
    have h4 := fun hq : Queried s .v4 => (ipv4_right_iff s i).1 (by
      rw [← beforeLink_ipv4, ← sigEventCheck_status]
      exact h.status .v4 hq.1) hq
    have h6 := fun hq : Queried s .v6 => (ipv6_right_iff s i).1 (by
      rw [← sigEventCheck_status]
      exact h.status .v6 hq.1) hq
    exact ⟨fun hq => (h4 hq).1, fun hq => (h4 hq).2, h6⟩
  · intro h
    refine checkedBy_of_status fun f henable => ?_
    rw [sigEventCheck_status]
    cases f with
    | v4 =>
        rw [beforeLink_ipv4]
        exact (ipv4_right_iff s i).2 fun hq => ⟨h.ipv4 hq, h.ipv4_silent hq⟩
    | v6 => exact (ipv6_right_iff s i).2 h.ipv6

/-! ### Whole runs -/

/-- **The checks of a run are right exactly when the modem answers their queries as the code
expects.** -/
theorem checked_iff (w : ℕ) (profile : Profile) (psAttachedState : UInt8) (sLink : Option Link)
    (wdsConnectionHandle : IpFamily → UInt32) (now : ℕ) (evs : List Event) :
    (∀ m ∈ EventRun.moves (step w)
        (start w profile psAttachedState sLink wdsConnectionHandle now) evs, Checked m.1 m.2) ↔
      ∀ m ∈ EventRun.moves (step w)
        (start w profile psAttachedState sLink wdsConnectionHandle now) evs, Answered m.1 m.2 := by
  have hone : ∀ (s : Cm) (e : Event), Checked s e ↔ Answered s e := by
    intro s e
    cases e with
    | check i => exact checkedBy_iff s i
    | start i => exact Iff.rfl
    | stop i => exact Iff.rfl
    | deviceDisconnected => exact Iff.rfl
    | voiceNetworkStateChanged psAttachedState now => exact Iff.rfl
    | dataCallListChanged now => exact Iff.rfl
    | modemReportReset => exact Iff.rfl
    | loopbackConfigInd loopbackState => exact Iff.rfl
    | hangup => exact Iff.rfl
  exact forall₂_congr fun m _ => hone m.1 m.2

/-- Only IPv6 is asked for, and its first query times out: the status stays unknown. -/
theorem not_checked : ¬ ∀ (profile : Profile) (evs : List Event),
    ∀ m ∈ EventRun.moves (step 64) (start 64 profile 1 none (fun _ => 0) 0) evs,
      Checked m.1 m.2 := by
  intro hall
  have hchecked : CheckedBy (start 64 (.default false true) 1 none (fun _ => 0) 0) silentCheck :=
    hall _ [.check silentCheck] (_, _) (List.mem_cons_self ..)
  have hstatus := hchecked.status .v6 rfl
  exact absurd hstatus (by decide)

end QuectelCM

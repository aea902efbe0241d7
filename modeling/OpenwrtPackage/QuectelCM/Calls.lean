/-
**Which calls are up.**

A call is set up with `QMIWDS_START_NETWORK_INTERFACE`, for which the modem gives a handle, and it
is up until the modem says that it has ended or until the handle is passed to
`QMIWDS_STOP_NETWORK_INTERFACE`.  The loop keeps one handle and one status for each family.
`SIG_EVENT_STOP` takes a call down only when its status is connected, and the status is set only
after the addresses have been fetched.

The calls that are up are counted beside the loop, from what it sends and gets.

* `QuectelCM.Calls`, `QuectelCM.Calls.see` — the calls of a family, and what an action does to them;
* `QuectelCM.World.step` — the loop and the calls;
* `QuectelCM.NoOrphan` — a stop that comes now leaves no call up, and no handle has been lost;
* `QuectelCM.Held` — a call that is up has its handle in the loop, and its status is connected;
* `QuectelCM.Kept` — the answers of a step are such that no call is lost;
* `QuectelCM.noOrphan_iff` — **a run leaves no call behind exactly when no answer of it loses one**;
* `QuectelCM.not_noOrphan` — a call whose addresses cannot be fetched.
-/
import OpenwrtPackage.QuectelCM.LinkAddress

set_option relaxedAutoImplicit false
set_option autoImplicit false

namespace QuectelCM

/-! ### The calls beside the loop -/

/-- The calls of one family. -/
structure Calls where
  /-- the handles that have been obtained, whose end has not been reported, and which have not been
  passed to a stop -/
  owed : List UInt32
  /-- a handle has been overwritten while its call was up -/
  overwritten : Bool

/-- A handle is obtained. -/
def Calls.obtain (c : Calls) (handle : UInt32) : Calls :=
  ⟨c.owed ++ [handle], c.overwritten || c.owed ≠ []⟩

/-- What an action makes of the calls of the family `f`. -/
def Calls.see (f : IpFamily) (c : Calls) : Action → Calls
  | .startNetwork g (some handle) => if g = f then c.obtain handle else c
  | .pktSrvcStatus g report =>
      if g = f ∧ report = some qwdsPktDataDisconnected then { c with owed := [] } else c
  | .stopNetwork g handle => if g = f then { c with owed := c.owed.filter (· ≠ handle) } else c
  | _ => c

/-- What the actions of an event make of them. -/
def Calls.seeAll (f : IpFamily) (c : Calls) (acts : List Action) : Calls := acts.foldl (see f) c

structure World where
  cm : Cm
  calls : IpFamily → Calls

inductive WorldEvent where
  /-- an event of the loop -/
  | loop (e : Event)
  /-- an indication of the modem says that the call of the family `f` has ended -/
  | ended (f : IpFamily)

def World.step (w : ℕ) (x : World) : WorldEvent → Option World
  | .loop e => (QuectelCM.step w x.cm e).map fun cm =>
      ⟨cm, fun f => (x.calls f).seeAll f (handle w x.cm e).2⟩
  | .ended f => some { x with calls := Function.update x.calls f { x.calls f with owed := [] } }

/-- The loop is entered and no call of it is up. -/
def World.start (w : ℕ) (profile : Profile) (psAttachedState : UInt8) (sLink : Option Link)
    (wdsConnectionHandle : IpFamily → UInt32) (now : ℕ) : World :=
  ⟨QuectelCM.start w profile psAttachedState sLink wdsConnectionHandle now, fun _ => ⟨[], false⟩⟩

/-! ### What should hold of the calls -/

/-- No handle has been overwritten while its call was up, and after a `SIG_EVENT_STOP` no call of an
enabled family is up. -/
def NoOrphan (w : ℕ) (x : World) : Prop :=
  (∀ f, (x.calls f).overwritten = false) ∧
    ∀ i y, x.step w (.loop (.stop i)) = some y →
      ∀ f, x.cm.profile.enable f = true → (y.calls f).owed = []

/-- The request returns 0. -/
def Succeeds (a : Answer) : Prop := ∀ err, qmiRspCheck a = .error err → err = 0

/-- The handle that a start gets for the family `f`. -/
def obtained (s : Cm) (i : StartInput) : IpFamily → Option UInt32
  | .v4 =>
      if 0 < (requestSetupDataCall i.setupIpv4).1 ∧ hasCredentials s.profile then
        (requestSetupDataCall i.setupIpv4Again).2
      else (requestSetupDataCall i.setupIpv4).2
  | .v6 => (requestSetupDataCall i.setupIpv6).2

def StartInput.address (i : StartInput) : IpFamily → Answer
  | .v4 => i.addressIpv4
  | .v6 => i.addressIpv6

/-- If a start gets a handle for the family `f`, it is not 0, and the addresses can be fetched. -/
def DialKept (s : Cm) (i : StartInput) (f : IpFamily) : Prop :=
  Wanted s f → ∀ handle ∈ obtained s i f, handle ≠ 0 ∧ Succeeds (i.address f)

/-- The modem says in its answer to a query that the call has ended. -/
def ReportsEnd (a : Answer) : Prop :=
  ∃ m, qmiRspCheck a = .ok m ∧
    (Qmi.getTLV m 0x01).map (fun pPktSrvc => Bytes.byteAt m (pPktSrvc + 3)) =
      some qwdsPktDataDisconnected

/-- A check finds that the call of the family `f` has ended or is still up.  For IPv4 a query that
fails counts as the end, for IPv6 it counts for nothing. -/
def CheckKept (s : Cm) (i : CheckInput) : IpFamily → Prop
  | .v4 =>
      ReportsEnd i.queryIpv4 ∨
        StaysConnected s i ∧ (s.profile.ipv4.address = 0 → Succeeds i.addressIpv4)
  | .v6 =>
      ReportsEnd i.queryIpv6 ∨
        (reported i.queryIpv6).getD qwdsPktDataConnected = qwdsPktDataConnected

/-- The answers that an event gets lose no call of the family `f`. -/
def KeptAt (w : ℕ) (s : Cm) (c : Calls) (f : IpFamily) : Event → Prop
  | .start i => ¬ s.detached → ¬ NotYetAllowed w s i → DialKept s i f
  | .check i => c.owed ≠ [] → CheckKept s i f
  | _ => True

/-- The answers that a step gets lose no call. -/
def Kept (w : ℕ) (x : World) : WorldEvent → Prop
  | .loop e => ∀ f, KeptAt w x.cm (x.calls f) f e
  | .ended _ => True

/-! ### Actions and calls -/

/-- The actions are about no call. -/
def Quiet (acts : List Action) : Prop := ∀ a ∈ acts, a.family = none

section

variable {f g : IpFamily} {c : Calls} {acts acts' : List Action}

@[simp] theorem seeAll_nil : c.seeAll f [] = c := rfl

@[simp] theorem seeAll_cons (a : Action) : c.seeAll f (a :: acts) = (c.see f a).seeAll f acts := rfl

@[simp] theorem seeAll_append : c.seeAll f (acts ++ acts') = (c.seeAll f acts).seeAll f acts' :=
  List.foldl_append ..

theorem see_of_family {a : Action} (h : a.family ≠ some f) : c.see f a = c := by
  cases a with
  | startNetwork g handle =>
      have hne : g ≠ f := fun heq => h (heq ▸ rfl)
      cases handle <;> simp [Calls.see, hne]
  | stopNetwork g handle =>
      have hne : g ≠ f := fun heq => h (heq ▸ rfl)
      simp [Calls.see, hne]
  | pktSrvcStatus g report =>
      have hne : g ≠ f := fun heq => h (heq ▸ rfl)
      simp [Calls.see, hne]
  | _ => rfl

theorem seeAll_of_family (h : ∀ a ∈ acts, a.family ≠ some f) : c.seeAll f acts = c := by
  induction acts generalizing c with
  | nil => rfl
  | cons a acts ih =>
      rw [seeAll_cons, see_of_family (h a (List.mem_cons_self ..))]
      exact ih fun b hb => h b (List.mem_cons_of_mem _ hb)

/-- The calls of a family are not touched by what is about the other one. -/
theorem seeAll_of_about (h : About g acts) (hne : g ≠ f) : c.seeAll f acts = c :=
  seeAll_of_family fun a ha heq => hne (Option.some.inj ((h a ha).symm.trans heq))

theorem seeAll_of_quiet (h : Quiet acts) : c.seeAll f acts = c :=
  seeAll_of_family fun a ha heq => by simp [h a ha] at heq

theorem Quiet.append (h : Quiet acts) (h' : Quiet acts') : Quiet (acts ++ acts') :=
  fun a ha => (List.mem_append.1 ha).elim (h a) (h' a)

/-- A family without a call gets one by a setup only. -/
theorem seeAll_of_no_setup (hempty : c.owed = [])
    (h : ∀ a ∈ acts, ∀ handle, a ≠ .startNetwork f (some handle)) : c.seeAll f acts = c := by
  induction acts with
  | nil => rfl
  | cons a acts ih =>
      have hsee : c.see f a = c := by
        obtain ⟨owed, overwritten⟩ := c
        obtain rfl : owed = [] := hempty
        cases a with
        | startNetwork g handle =>
            cases handle with
            | none => rfl
            | some handle =>
                have hne : g ≠ f := fun heq => h _ (List.mem_cons_self ..) handle (heq ▸ rfl)
                simp [Calls.see, hne]
        | _ => simp [Calls.see]
      rw [seeAll_cons, hsee]
      exact ih fun b hb => h b (List.mem_cons_of_mem _ hb)

end

/-! ### The parts of an event and the families -/

/-- The call of the family `f` is the same to the loop in both states. -/
structure SameAt (f : IpFamily) (s t : Cm) : Prop where
  status : t.connectionStatus f = s.connectionStatus f
  handle : t.wdsConnectionHandle f = s.wdsConnectionHandle f
  enable : t.profile.enable f = s.profile.enable f

theorem SameAt.trans {f : IpFamily} {s t u : Cm} (h : SameAt f s t) (h' : SameAt f t u) :
    SameAt f s u :=
  ⟨h'.status.trans h.status, h'.handle.trans h.handle, h'.enable.trans h.enable⟩

theorem Touches.sameAt {f g : IpFamily} {s t : Cm} (h : Touches g s t) (hne : f ≠ g) :
    SameAt f s t :=
  ⟨h.status f hne, h.handle f hne, h.enable f⟩

theorem usbnetLinkChange_sameAt (s : Cm) (link : Link) (f : IpFamily) :
    SameAt f s (usbnetLinkChange s link).1 := by
  cases f with
  | v4 => exact (usbnetLinkChange_touches s link .v6).sameAt (by decide)
  | v6 => exact (usbnetLinkChange_touches s link .v4).sameAt (by decide)

theorem usbnetLinkChange_quiet (s : Cm) (link : Link) : Quiet (usbnetLinkChange s link).2 := by
  unfold usbnetLinkChange
  dsimp only
  split
  · simp [Quiet, Action.family]
  · by_cases hdown : link = .down <;> simp [Quiet, Action.family, hdown]

theorem sendQuit_quiet : Quiet [.sendQuit] := by simp [Quiet, Action.family]

theorem mainQuit_sameAt (s : Cm) (f : IpFamily) : SameAt f s (mainQuit s).1 :=
  ⟨(usbnetLinkChange_sameAt s .down f).status, (usbnetLinkChange_sameAt s .down f).handle,
    (usbnetLinkChange_sameAt s .down f).enable⟩

theorem linkAfterCheck_sameAt (s : Cm) (f : IpFamily) : SameAt f s (linkAfterCheck s).1 := by
  unfold linkAfterCheck
  split
  · exact usbnetLinkChange_sameAt s _ f
  · split
    · exact usbnetLinkChange_sameAt s _ f
    · exact ⟨rfl, rfl, rfl⟩

theorem linkAfterCheck_quiet (s : Cm) : Quiet (linkAfterCheck s).2 := by
  unfold linkAfterCheck
  split
  · exact usbnetLinkChange_quiet _ _
  · split
    · exact usbnetLinkChange_quiet _ _
    · simp [Quiet]

theorem backOff_sameAt (w : ℕ) (s : Cm) (now : ℕ) (f : IpFamily) :
    SameAt f s (backOff w s now).1 := by
  unfold backOff
  split
  · exact ⟨rfl, rfl, rfl⟩
  · split <;> exact ⟨rfl, rfl, rfl⟩

theorem backOff_quiet (w : ℕ) (s : Cm) (now : ℕ) : Quiet (backOff w s now).2 := by
  unfold backOff
  split
  · simp [Quiet, Action.family]
  · split <;> simp [Quiet]

/-! ### One family -/

/-- One call of the family is up, the loop has its handle, and its status is connected. -/
structure Up (f : IpFamily) (s : Cm) (c : Calls) : Prop where
  owed : c.owed = [s.wdsConnectionHandle f]
  known : s.wdsConnectionHandle f ≠ 0
  status : s.connectionStatus f = qwdsPktDataConnected
  enable : s.profile.enable f = true

/-- No call of the family is up, or one as above. -/
structure Held (f : IpFamily) (s : Cm) (c : Calls) : Prop where
  kept : c.overwritten = false
  known : c.owed = [] ∨ Up f s c

/-- A call is up that a stop would leave. -/
structure Orphaned (f : IpFamily) (s : Cm) (c : Calls) : Prop where
  enable : s.profile.enable f = true
  up : c.owed ≠ []
  left : s.connectionStatus f = qwdsPktDataConnected → s.wdsConnectionHandle f = 0

/-- The calls of the family are in order when `good` holds, and otherwise one is orphaned. -/
structure Settles (f : IpFamily) (good : Prop) (s : Cm) (c : Calls) : Prop where
  held : good → Held f s c
  orphaned : ¬ good → Orphaned f s c

theorem Up.congr {f : IpFamily} {s t : Cm} {c : Calls} (h : Up f s c) (hst : SameAt f s t) :
    Up f t c := by
  refine ⟨?_, ?_, hst.status.trans h.status, hst.enable.trans h.enable⟩
  · rw [hst.handle]
    exact h.owed
  · rw [hst.handle]
    exact h.known

theorem Held.congr {f : IpFamily} {s t : Cm} {c : Calls} (h : Held f s c) (hst : SameAt f s t) :
    Held f t c :=
  ⟨h.kept, h.known.imp_right fun hup => hup.congr hst⟩

theorem Orphaned.congr {f : IpFamily} {s t : Cm} {c : Calls} (h : Orphaned f s c)
    (hst : SameAt f s t) : Orphaned f t c := by
  refine ⟨hst.enable.trans h.enable, h.up, ?_⟩
  rw [hst.handle, hst.status]
  exact h.left

theorem Settles.congr {f : IpFamily} {good : Prop} {s t : Cm} {c : Calls}
    (h : Settles f good s c) (hst : SameAt f s t) : Settles f good t c :=
  ⟨fun hg => (h.held hg).congr hst, fun hg => (h.orphaned hg).congr hst⟩

theorem Settles.of_iff {f : IpFamily} {good good' : Prop} {s : Cm} {c : Calls}
    (h : Settles f good s c) (hiff : good' ↔ good) : Settles f good' s c :=
  ⟨fun hg => h.held (hiff.1 hg), fun hg => h.orphaned fun hg' => hg (hiff.2 hg')⟩

/-- Nothing is asked of the answers when the calls are in order anyway. -/
theorem settles_of_held {f : IpFamily} {good : Prop} {s : Cm} {c : Calls} (hgood : good)
    (h : Held f s c) : Settles f good s c :=
  ⟨fun _ => h, fun hbad => absurd hgood hbad⟩

theorem settles_of_orphaned {f : IpFamily} {good : Prop} {s : Cm} {c : Calls} (hbad : ¬ good)
    (h : Orphaned f s c) : Settles f good s c :=
  ⟨fun hgood => absurd hgood hbad, fun _ => h⟩

/-- A family without a call is in order. -/
theorem held_of_owed_nil {f : IpFamily} {s : Cm} {c : Calls} (hkept : c.overwritten = false)
    (hempty : c.owed = []) : Held f s c :=
  ⟨hkept, .inl hempty⟩

/-- A family that is wanted has no call. -/
theorem owed_nil_of_wanted {f : IpFamily} {s : Cm} {c : Calls} (h : Held f s c)
    (hw : Wanted s f) : c.owed = [] :=
  h.known.resolve_right fun hup => hw.2 hup.status

/-! ### `SIG_EVENT_START` -/

/-- What a setup makes of the calls of the family `f`. -/
def Calls.setup (c : Calls) : Option UInt32 → Calls
  | none => c
  | some handle => c.obtain handle

/-- A setup with the result `r` has got this handle, or none. -/
structure SetupGets (f : IpFamily) (s : Cm) (handle : Option UInt32) (r : ℤ × Cm × List Action) :
    Prop where
  failed : r.1 ≠ 0 → handle = none
  status : r.2.1.connectionStatus f = s.connectionStatus f
  enable : r.2.1.profile.enable f = s.profile.enable f
  stored : ∀ h ∈ handle, r.2.1.wdsConnectionHandle f = h
  seen : ∀ c : Calls, c.seeAll f r.2.2 = c.setup handle

theorem requestSetupDataCall_failed {a : Answer} (h : (requestSetupDataCall a).1 ≠ 0) :
    (requestSetupDataCall a).2 = none := by
  unfold requestSetupDataCall at h ⊢
  cases hcheck : qmiRspCheck a with
  | error err => rfl
  | ok m => simp [hcheck] at h

theorem setupDataCall_gets (s : Cm) (f : IpFamily) (a : Answer) :
    SetupGets f s (requestSetupDataCall a).2 (setupDataCall s f a) where
  failed := requestSetupDataCall_failed
  status := by
    dsimp only [setupDataCall]
    cases (requestSetupDataCall a).2 <;> rfl
  enable := (setupDataCall_touches s f a).enable f
  stored := by
    intro h hmem
    dsimp only [setupDataCall]
    rw [Option.mem_def.1 hmem]
    exact setHandle_self ..
  seen := by
    intro c
    dsimp only [setupDataCall]
    cases (requestSetupDataCall a).2 <;> simp [Calls.see, Calls.setup]

theorem setupIpv4_gets (s : Cm) (i : StartInput) :
    SetupGets .v4 s (obtained s i .v4) (setupIpv4 s i) := by
  have hfirst := setupDataCall_gets s .v4 i.setupIpv4
  have hret : (setupDataCall s .v4 i.setupIpv4).1 = (requestSetupDataCall i.setupIpv4).1 := rfl
  unfold setupIpv4 obtained
  dsimp only
  rw [hret]
  by_cases hagain : 0 < (requestSetupDataCall i.setupIpv4).1 ∧ hasCredentials s.profile
  · rw [if_pos hagain, if_pos hagain]
    have hnone : (requestSetupDataCall i.setupIpv4).2 = none :=
      requestSetupDataCall_failed (by omega)
    generalize hq : (setupDataCall s .v4 i.setupIpv4).2.1.setAuth _ = q
    have hsecond := setupDataCall_gets q .v4 i.setupIpv4Again
    have hstatus : q.connectionStatus .v4 = s.connectionStatus .v4 := by
      rw [← hq, setAuth_status]
      exact hfirst.status
    have henable : q.profile.enable .v4 = s.profile.enable .v4 := by
      rw [← hq]
      exact ((@Touches.setAuth .v4 _ _).enable .v4).trans hfirst.enable
    refine ⟨hsecond.failed, ?_, ?_, fun h hmem => ?_, fun c => ?_⟩
    · refine Eq.trans ?_ (hsecond.status.trans hstatus)
      dsimp only
      split <;> rfl
    · refine Eq.trans ?_ (hsecond.enable.trans henable)
      dsimp only
      split <;> rfl
    · refine Eq.trans ?_ (hsecond.stored h hmem)
      dsimp only
      split <;> rfl
    · rw [seeAll_append, hfirst.seen, hnone]
      exact hsecond.seen c
  · rw [if_neg hagain, if_neg hagain]
    exact hfirst

/-- `requestGetIPAddress` returns 0 when there is no handle, and else when its request does. -/
theorem getIPAddress_ret (s : Cm) (f : IpFamily) (a : Answer) :
    (getIPAddress s f a).1 = 0 ↔ s.wdsConnectionHandle f = 0 ∨ Succeeds a := by
  unfold getIPAddress requestGetIPAddress Succeeds
  by_cases hh : s.wdsConnectionHandle f = 0
  · simp [hh]
  · simp only [hh, if_false, false_or]
    cases qmiRspCheck a with
    | error err => simp
    | ok m => simp

theorem getIPAddress_sameAt (s : Cm) (f g : IpFamily) (a : Answer) :
    SameAt g s (getIPAddress s f a).2 :=
  ⟨rfl, rfl, (getIPAddress_touches s f f a).enable g⟩

/-- The call of a setup is in order when it has a handle and its addresses can be fetched. -/
theorem finishSetup_obtained {f : IpFamily} {s : Cm} {h : UInt32} {r : ℤ × Cm × List Action}
    {c : Calls} (hgets : SetupGets f s (some h) r) (hw : Wanted s f) (howed : c.owed = [h])
    (hkept : c.overwritten = false) (address : Answer) :
    Settles f (h ≠ 0 ∧ Succeeds address) (finishSetup f address r).1 c := by
  have hret : r.1 = 0 := by
    by_contra hne
    exact Option.some_ne_none h (hgets.failed hne)
  have hget := getIPAddress_ret r.2.1 f address
  rw [hgets.stored h rfl] at hget
  have hsame := getIPAddress_sameAt r.2.1 f f address
  have hhandle := hsame.handle.trans (hgets.stored h rfl)
  have hstatus := hsame.status.trans hgets.status
  have henable := hsame.enable.trans (hgets.enable.trans hw.1)
  unfold finishSetup
  rw [if_pos hret]
  dsimp only
  by_cases hzero : h = 0
  · rw [if_pos (hget.2 (.inl hzero))]
    refine settles_of_orphaned (fun hgood => hgood.1 hzero) ⟨henable, by simp [howed], fun _ => ?_⟩
    rw [setStatus_handle, hhandle, hzero]
  by_cases hsucc : Succeeds address
  · rw [if_pos (hget.2 (.inr hsucc))]
    refine settles_of_held ⟨hzero, hsucc⟩ ⟨hkept, .inr ⟨?_, ?_, setStatus_self .., henable⟩⟩
    · rw [setStatus_handle, hhandle, howed]
    · rw [setStatus_handle, hhandle]
      exact hzero
  · rw [if_neg fun hok => (hget.1 hok).elim hzero hsucc]
    refine settles_of_orphaned (fun hgood => hsucc hgood.2)
      ⟨henable, by simp [howed], fun hconn => ?_⟩
    exact absurd (hstatus.symm.trans hconn) hw.2

/-- A setup for a family without a call. -/
theorem finishSetup_settles {f : IpFamily} {s : Cm} {handle : Option UInt32}
    {r : ℤ × Cm × List Action} {c : Calls} (hgets : SetupGets f s handle r) (hw : Wanted s f)
    (hheld : Held f s c) (address : Answer) :
    Settles f (∀ h ∈ handle, h ≠ 0 ∧ Succeeds address) (finishSetup f address r).1
      (c.seeAll f (finishSetup f address r).2) := by
  have hempty := owed_nil_of_wanted hheld hw
  rw [finishSetup_actions, hgets.seen]
  cases handle with
  | none => exact settles_of_held (by simp) (held_of_owed_nil hheld.kept hempty)
  | some h =>
      have howed : (c.setup (some h)).owed = [h] := by simp [Calls.setup, Calls.obtain, hempty]
      have hkept : (c.setup (some h)).overwritten = false := by
        simp [Calls.setup, Calls.obtain, hempty, hheld.kept]
      refine (finishSetup_obtained hgets hw howed hkept address).of_iff ?_
      exact ⟨fun hgood => hgood h rfl, fun hgood h' hmem => Option.some.inj hmem ▸ hgood⟩

/-- A start leaves the calls of a family that is not wanted alone. -/
theorem settles_of_not_wanted {f : IpFamily} {s : Cm} {i : StartInput} {c : Calls}
    (hw : ¬ Wanted s f) (hheld : Held f s c) : Settles f (DialKept s i f) s c :=
  settles_of_held (fun hwanted => absurd hwanted hw) hheld

theorem dialKept_iff {f : IpFamily} {s : Cm} {i : StartInput} (hw : Wanted s f) :
    DialKept s i f ↔ ∀ h ∈ obtained s i f, h ≠ 0 ∧ Succeeds (i.address f) :=
  ⟨fun h => h hw, fun h _ => h⟩

theorem startIpv4_settles {s : Cm} {c : Calls} (hheld : Held .v4 s c) (i : StartInput) :
    Settles .v4 (DialKept s i .v4) (startIpv4 s i).1 (c.seeAll .v4 (startIpv4 s i).2) := by
  unfold startIpv4
  by_cases hw : Wanted s .v4
  · rw [if_pos hw]
    exact (finishSetup_settles (setupIpv4_gets s i) hw hheld i.addressIpv4).of_iff
      (dialKept_iff hw)
  · rw [if_neg hw]
    exact settles_of_not_wanted hw hheld

theorem startIpv6_settles {s : Cm} {c : Calls} (hheld : Held .v6 s c) (i : StartInput) :
    Settles .v6 (DialKept s i .v6) (startIpv6 s i).1 (c.seeAll .v6 (startIpv6 s i).2) := by
  unfold startIpv6
  by_cases hw : Wanted s .v6
  · rw [if_pos hw]
    exact (finishSetup_settles (setupDataCall_gets s .v6 i.setupIpv6) hw hheld
      i.addressIpv6).of_iff (dialKept_iff hw)
  · rw [if_neg hw]
    exact settles_of_not_wanted hw hheld

/-! ### `SIG_EVENT_CHECK` -/

/-- No handle is obtained. -/
def NoSetup (acts : List Action) : Prop :=
  ∀ a ∈ acts, ∀ f handle, a ≠ .startNetwork f (some handle)

theorem NoSetup.append {acts acts' : List Action} (h : NoSetup acts) (h' : NoSetup acts') :
    NoSetup (acts ++ acts') :=
  fun a ha => (List.mem_append.1 ha).elim (h a) (h' a)

theorem queryDataCall_noSetup (s : Cm) (f : IpFamily) (a : Answer) :
    NoSetup (queryDataCall s f a).2.2 := by
  simp [queryDataCall, NoSetup]

theorem compareAddress_noSetup (s : Cm) (i : CheckInput) : NoSetup (compareAddress s i).2 := by
  unfold compareAddress
  split
  · dsimp only
    split
    · unfold deactivateDefaultPDP
      dsimp only
      split <;> simp [NoSetup]
    · simp [NoSetup]
  · simp [NoSetup]

theorem checkIpv4_noSetup (s : Cm) (i : CheckInput) : NoSetup (checkIpv4 s i).2 := by
  unfold checkIpv4
  split
  · dsimp only
    split
    · exact (queryDataCall_noSetup s .v4 i.queryIpv4).append (compareAddress_noSetup _ i)
    · exact queryDataCall_noSetup s .v4 i.queryIpv4
  · simp [NoSetup]

theorem checkIpv6_noSetup (s : Cm) (i : CheckInput) : NoSetup (checkIpv6 s i).2 := by
  unfold checkIpv6
  split
  · exact queryDataCall_noSetup s .v6 i.queryIpv6
  · simp [NoSetup]

section

variable {f : IpFamily} {s : Cm} {c : Calls} {a : Answer}

theorem seeAll_report (report : Option UInt8) :
    c.seeAll f [.pktSrvcStatus f report] =
      if report = some qwdsPktDataDisconnected then { c with owed := [] } else c := by
  simp [Calls.see]

theorem query_report_error {err : ℤ} (h : qmiRspCheck a = .error err) :
    (queryDataCall s f a).2.2 = [.pktSrvcStatus f none] := by
  rw [queryDataCall, h]

theorem query_report_ok {m : List UInt8} (h : qmiRspCheck a = .ok m) :
    (queryDataCall s f a).2.2 = [.pktSrvcStatus f
      ((Qmi.getTLV m 0x01).map fun pPktSrvc => Bytes.byteAt m (pPktSrvc + 3))] := by
  rw [queryDataCall, h]

/-- A query whose answer says that the call has ended. -/
theorem seeAll_query_of_end (hend : ReportsEnd a) :
    c.seeAll f (queryDataCall s f a).2.2 = { c with owed := [] } := by
  obtain ⟨m, hm, hreport⟩ := hend
  rw [query_report_ok hm, seeAll_report, if_pos hreport]

theorem seeAll_query_of_not_end (hend : ¬ ReportsEnd a) :
    c.seeAll f (queryDataCall s f a).2.2 = c := by
  cases hm : qmiRspCheck a with
  | error err =>
      rw [query_report_error hm, seeAll_report]
      exact if_neg (by simp)
  | ok m =>
      rw [query_report_ok hm, seeAll_report]
      exact if_neg fun hreport => hend ⟨m, hm, hreport⟩

/-- The status after such a query. -/
theorem reported_of_end (hend : ReportsEnd a) : reported a = some qwdsPktDataDisconnected := by
  obtain ⟨m, hm, hreport⟩ := hend
  obtain ⟨p, hp, hbyte⟩ := Option.map_eq_some_iff.1 hreport
  rw [reported_ok hm, pktSrvcStatus, hp]
  dsimp only
  rw [hbyte, ite_self]

end

/-- A call that is up is orphaned when its status is no more connected. -/
theorem Up.orphaned {f : IpFamily} {s t : Cm} {c : Calls} (h : Up f s c)
    (henable : t.profile.enable f = s.profile.enable f)
    (hstatus : t.connectionStatus f ≠ qwdsPktDataConnected) : Orphaned f t c :=
  ⟨henable.trans h.enable, by simp [h.owed], fun hc => absurd hc hstatus⟩

/-- A call whose address is not ours is passed to a stop. -/
theorem compareAddress_held {s : Cm} {c : Calls} (hkept : c.overwritten = false)
    (h : Up .v4 s c) (i : CheckInput) :
    Held .v4 (compareAddress s i).1 (c.seeAll .v4 (compareAddress s i).2) := by
  have hget := getIPAddress_sameAt s .v4 .v4 i.checkIpv4
  have hsame : SameAt .v4 s (checkIpv4Address s i.checkIpv4).2 := hget
  unfold compareAddress
  rw [if_pos h.status]
  dsimp only
  split
  · refine held_of_owed_nil ?_ ?_
    · rw [deactivateDefaultPDP, if_neg (by rw [hsame.handle]; exact h.known)]
      simp [Calls.see, hkept]
    · rw [deactivateDefaultPDP, if_neg (by rw [hsame.handle]; exact h.known)]
      simp [Calls.see, h.owed, hsame.handle]
  · exact ⟨hkept, .inr (h.congr hsame)⟩

/-- A call that is up after the query stays in order when its address can be fetched. -/
theorem compareAddress_settles {s : Cm} {c : Calls} (hkept : c.overwritten = false)
    (h : Up .v4 s c) (i : CheckInput) :
    Settles .v4 (s.profile.ipv4.address = 0 → Succeeds i.addressIpv4)
      (compareAddress (fetchAddress s i.addressIpv4) i).1
      (c.seeAll .v4 (compareAddress (fetchAddress s i.addressIpv4) i).2) := by
  have hret := getIPAddress_ret s .v4 i.addressIpv4
  have hsame := getIPAddress_sameAt s .v4 .v4 i.addressIpv4
  unfold fetchAddress
  by_cases haddr : s.profile.ipv4.address = 0
  · rw [if_pos ⟨h.status, haddr⟩]
    dsimp only
    by_cases hsucc : Succeeds i.addressIpv4
    · rw [if_neg (not_not.2 (hret.2 (.inr hsucc)))]
      exact settles_of_held (fun _ => hsucc) (compareAddress_held hkept (h.congr hsame) i)
    · have hfail : (getIPAddress s .v4 i.addressIpv4).1 ≠ 0 := fun hc =>
        (hret.1 hc).elim h.known hsucc
      rw [if_pos hfail, compareAddress, if_neg (by rw [setStatus_self]; decide)]
      refine settles_of_orphaned (fun hgood => hsucc (hgood haddr)) ?_
      refine h.orphaned hsame.enable ?_
      rw [setStatus_self]
      decide
  · rw [if_neg fun hc => haddr hc.2]
    exact settles_of_held (fun hc => absurd hc haddr) (compareAddress_held hkept h i)

/-- A family without a call stays so when no handle is obtained. -/
theorem settles_of_no_setup {f : IpFamily} {good : Prop} {s t : Cm} {c : Calls}
    {acts : List Action} (hheld : Held f s c) (hempty : c.owed = []) (hacts : NoSetup acts) :
    Settles f (c.owed ≠ [] → good) t (c.seeAll f acts) := by
  rw [seeAll_of_no_setup hempty fun a ha handle => hacts a ha f handle]
  exact settles_of_held (fun howed => absurd hempty howed) (held_of_owed_nil hheld.kept hempty)

/-- The answers are looked at when a call is up. -/
theorem Up.settles {f : IpFamily} {good : Prop} {s t : Cm} {c c' : Calls} (h : Up f s c)
    (hsettles : Settles f good t c') : Settles f (c.owed ≠ [] → good) t c' :=
  hsettles.of_iff ⟨fun hgood => hgood (by simp [h.owed]), fun hgood _ => hgood⟩

/-- IPv4 with a call that is up, after a query that returns 0. -/
theorem compareAddress_query_settles {s : Cm} {c : Calls} (hkept : c.overwritten = false)
    (hup : Up .v4 s c) {i : CheckInput} {q : ℤ × Cm × List Action}
    (hquery : queryDataCall s .v4 i.queryIpv4 = q) (hret : q.1 = 0) :
    Settles .v4 (CheckKept s i .v4) (compareAddress (fetchAddress q.2.1 i.addressIpv4) i).1
      ((c.seeAll .v4 q.2.2).seeAll .v4
        (compareAddress (fetchAddress q.2.1 i.addressIpv4) i).2) := by
  subst hquery
  have hstays := staysConnected_iff s i
  have hstatus := queryDataCall_status s .v4 i.queryIpv4
  by_cases hconn : (queryDataCall s .v4 i.queryIpv4).2.1.connectionStatus .v4 =
      qwdsPktDataConnected
  · have hend : ¬ ReportsEnd i.queryIpv4 := fun hend => by
      rw [hstatus, reported_of_end hend, Option.getD_some] at hconn
      exact absurd hconn (by decide)
    have hsame : SameAt .v4 s (queryDataCall s .v4 i.queryIpv4).2.1 :=
      ⟨hconn.trans hup.status.symm, queryDataCall_connected hconn, rfl⟩
    have hstay : StaysConnected s i := hstays.2 ⟨hret, hstatus ▸ hconn⟩
    rw [seeAll_query_of_not_end hend]
    refine (compareAddress_settles hkept (hup.congr hsame) i).of_iff ?_
    exact ⟨fun h => (h.resolve_left hend).2, fun h => .inr ⟨hstay, h⟩⟩
  · have hacts : (compareAddress (fetchAddress (queryDataCall s .v4 i.queryIpv4).2.1
        i.addressIpv4) i).2 = [] := by
      rw [fetchAddress, if_neg fun hc => hconn hc.1, compareAddress, if_neg hconn]
    rw [compareAddress_fetchAddress_of_ne hconn, hacts, seeAll_nil]
    by_cases hend : ReportsEnd i.queryIpv4
    · rw [seeAll_query_of_end hend]
      exact settles_of_held (.inl hend) (held_of_owed_nil hkept rfl)
    · rw [seeAll_query_of_not_end hend]
      refine settles_of_orphaned (fun hgood => ?_) (hup.orphaned rfl hconn)
      have hstay := (hgood.resolve_left hend).1
      exact absurd (hstatus.trans (hstays.1 hstay).2) hconn

theorem checkIpv4_settles {s : Cm} {c : Calls} (hheld : Held .v4 s c) (i : CheckInput) :
    Settles .v4 (c.owed ≠ [] → CheckKept s i .v4) (checkIpv4 s i).1
      (c.seeAll .v4 (checkIpv4 s i).2) := by
  obtain hempty | hup := hheld.known
  · exact settles_of_no_setup hheld hempty (checkIpv4_noSetup s i)
  refine hup.settles ?_
  have hq : Queried s .v4 := ⟨hup.enable, by rw [hup.status]; decide⟩
  unfold checkIpv4
  rw [if_pos hq]
  dsimp only
  by_cases hret : (queryDataCall s .v4 i.queryIpv4).1 = 0
  · rw [if_pos hret]
    dsimp only
    rw [seeAll_append]
    exact compareAddress_query_settles hheld.kept hup rfl hret
  · rw [if_neg hret]
    have hend : ¬ ReportsEnd i.queryIpv4 := by
      rintro ⟨m, hm, -⟩
      exact hret (queryDataCall_ret_ok hm)
    rw [seeAll_query_of_not_end hend]
    refine settles_of_orphaned (fun hgood => ?_) (hup.orphaned rfl ?_)
    · exact hret ((staysConnected_iff s i).1 (hgood.resolve_left hend).1).1
    · rw [setStatus_self]
      decide

theorem checkIpv6_settles {s : Cm} {c : Calls} (hheld : Held .v6 s c) (i : CheckInput) :
    Settles .v6 (c.owed ≠ [] → CheckKept s i .v6) (checkIpv6 s i).1
      (c.seeAll .v6 (checkIpv6 s i).2) := by
  obtain hempty | hup := hheld.known
  · exact settles_of_no_setup hheld hempty (checkIpv6_noSetup s i)
  refine hup.settles ?_
  have hq : Queried s .v6 := ⟨hup.enable, by rw [hup.status]; decide⟩
  have hstatus := queryDataCall_status s .v6 i.queryIpv6
  rw [hup.status] at hstatus
  unfold checkIpv6
  rw [if_pos hq]
  by_cases hend : ReportsEnd i.queryIpv6
  · rw [seeAll_query_of_end hend]
    exact settles_of_held (.inl hend) (held_of_owed_nil hheld.kept rfl)
  · rw [seeAll_query_of_not_end hend]
    refine ⟨fun hgood => ⟨hheld.kept, .inr ?_⟩, fun hbad => hup.orphaned rfl fun hconn => ?_⟩
    · have hconn := hstatus.trans (hgood.resolve_left hend)
      exact hup.congr ⟨hconn.trans hup.status.symm, queryDataCall_connected hconn, rfl⟩
    · exact hbad (.inr (hstatus.symm.trans hconn))

/-! ### `SIG_EVENT_STOP` -/

/-- A stop leaves no call of a family that is in order. -/
theorem stopFamily_held {f : IpFamily} {s : Cm} {c : Calls} (h : Held f s c) (a : Answer) :
    (c.seeAll f (stopFamily s f a).2).overwritten = false ∧
      (c.seeAll f (stopFamily s f a).2).owed = [] := by
  obtain hempty | hup := h.known
  · rw [seeAll_of_no_setup hempty]
    · exact ⟨h.kept, hempty⟩
    · unfold stopFamily deactivateDefaultPDP
      split
      · dsimp only
        split <;> simp
      · simp
  · rw [stopFamily, if_pos ⟨hup.enable, hup.status⟩, deactivateDefaultPDP, if_neg hup.known]
    simp [Calls.see, hup.owed, h.kept]

/-- It leaves a call that is orphaned. -/
theorem stopFamily_orphaned {f : IpFamily} {s : Cm} {c : Calls} (h : Orphaned f s c) (a : Answer) :
    (c.seeAll f (stopFamily s f a).2).owed ≠ [] := by
  unfold stopFamily
  split
  · rename_i hconn
    rw [deactivateDefaultPDP, if_pos (h.left hconn.2)]
    exact h.up
  · exact h.up

/-! ### Events -/

theorem sigEventStart_settles {w : ℕ} {f : IpFamily} {s : Cm} {c : Calls} {i : StartInput}
    (hheld : Held f s c) (hdetached : ¬ s.detached) (hallowed : ¬ NotYetAllowed w s i) :
    Settles f (DialKept s i f) (sigEventStart w s i).1 (c.seeAll f (sigEventStart w s i).2) := by
  have h4 := startIpv4_touches s i
  have h6 := startIpv6_touches (startIpv4 s i).1 i
  unfold sigEventStart
  rw [if_neg hdetached, if_neg hallowed]
  dsimp only
  rw [seeAll_append, seeAll_append, seeAll_of_quiet (backOff_quiet _ _ _)]
  cases f with
  | v4 =>
      rw [seeAll_of_about (startIpv6_about _ i) (by decide)]
      exact (startIpv4_settles hheld i).congr
        ((h6.sameAt (by decide)).trans (backOff_sameAt w _ i.finished .v4))
  | v6 =>
      have hsame : SameAt .v6 s (startIpv4 s i).1 := h4.sameAt (by decide)
      rw [seeAll_of_about (startIpv4_about s i) (by decide)]
      have hdial : DialKept s i .v6 ↔ DialKept (startIpv4 s i).1 i .v6 := by
        unfold DialKept Wanted
        rw [hsame.status, hsame.enable]
        rfl
      exact ((startIpv6_settles (hheld.congr hsame) i).of_iff hdial).congr
        (backOff_sameAt w _ i.finished .v6)

theorem sigEventCheck_settles {f : IpFamily} {s : Cm} {c : Calls} (hheld : Held f s c)
    (i : CheckInput) :
    Settles f (c.owed ≠ [] → CheckKept s i f) (sigEventCheck s i).1
      (c.seeAll f (sigEventCheck s i).2) := by
  obtain ⟨psAttachedState, hreg⟩ := checkRegistration_eq s i
  have hregSame : SameAt f s (checkRegistration s i) := hreg ▸ ⟨rfl, rfl, rfl⟩
  have hcheck : CheckKept (checkRegistration s i) i f ↔ CheckKept s i f := by
    rw [hreg]
    cases f <;> rfl
  have h4 := checkIpv4_touches (checkRegistration s i) i
  have h6 := checkIpv6_touches (checkIpv4 (checkRegistration s i) i).1 i
  have hredial : ∀ b : Bool, Quiet (if b then [Action.sendStart] else []) := by
    intro b
    cases b <;> simp [Quiet, Action.family]
  unfold sigEventCheck
  dsimp only
  rw [seeAll_append, seeAll_append, seeAll_append, seeAll_of_quiet (hredial _),
    seeAll_of_quiet (linkAfterCheck_quiet _)]
  cases f with
  | v4 =>
      rw [seeAll_of_about (checkIpv6_about _ i) (by decide)]
      exact ((checkIpv4_settles (hheld.congr hregSame) i).of_iff
        (imp_congr_right fun _ => hcheck.symm)).congr
        ((h6.sameAt (by decide)).trans (linkAfterCheck_sameAt _ .v4))
  | v6 =>
      have hsame : SameAt .v6 s (checkIpv4 (checkRegistration s i) i).1 :=
        hregSame.trans (h4.sameAt (by decide))
      rw [seeAll_of_about (checkIpv4_about _ i) (by decide)]
      exact (checkIpv6_settles (hheld.congr hsame) i).congr (linkAfterCheck_sameAt _ .v6)

/-- The calls that are up after a stop. -/
theorem sigEventStop_seeAll (s : Cm) (i : StopInput) (f : IpFamily) (c : Calls) :
    ∃ t a, SameAt f s t ∧ c.seeAll f (sigEventStop s i).2 = c.seeAll f (stopFamily t f a).2 := by
  unfold sigEventStop
  dsimp only
  rw [seeAll_append, seeAll_append, seeAll_append, seeAll_append, seeAll_of_quiet sendQuit_quiet,
    seeAll_of_quiet (usbnetLinkChange_quiet _ _)]
  have hmain : ∀ t : Cm, Quiet (mainQuit t).2 := fun t => usbnetLinkChange_quiet t .down
  rw [seeAll_of_quiet (hmain _)]
  cases f with
  | v4 =>
      rw [seeAll_of_about (stopFamily_about _ .v6 _) (by decide)]
      exact ⟨s, i.deactivateIpv4, ⟨rfl, rfl, rfl⟩, rfl⟩
  | v6 =>
      rw [seeAll_of_about (stopFamily_about s .v4 _) (by decide)]
      exact ⟨_, i.deactivateIpv6, (stopFamily_touches s .v4 _).sameAt (by decide), rfl⟩

/-- An event keeps the calls of a family in order exactly when its answers lose none. -/
theorem handle_settles {f : IpFamily} {s : Cm} {c : Calls} (w : ℕ) (hheld : Held f s c)
    (e : Event) :
    Settles f (KeptAt w s c f e) (handle w s e).1 (c.seeAll f (handle w s e).2) := by
  have hquiet : ∀ {t : Cm} {acts : List Action}, SameAt f s t → Quiet acts →
      Settles f True t (c.seeAll f acts) := fun hsame hacts => by
    rw [seeAll_of_quiet hacts]
    exact settles_of_held trivial (hheld.congr hsame)
  cases e with
  | start i =>
      simp only [handle, KeptAt, seeAll_cons]
      rw [see_of_family (by simp [Action.family])]
      by_cases hdetached : s.detached
      · rw [sigEventStart, if_pos hdetached]
        exact settles_of_held (fun hc => absurd hdetached hc) hheld
      by_cases hallowed : NotYetAllowed w s i
      · rw [sigEventStart, if_neg hdetached, if_pos hallowed, seeAll_cons,
          see_of_family (by simp [Action.family])]
        exact settles_of_held (fun _ hc => absurd hallowed hc) hheld
      · exact (sigEventStart_settles hheld hdetached hallowed).of_iff
          ⟨fun h => h hdetached hallowed, fun h _ _ => h⟩
  | check i =>
      simp only [handle, KeptAt, seeAll_cons]
      rw [see_of_family (by simp [Action.family])]
      exact sigEventCheck_settles hheld i
  | stop i =>
      simp only [handle, KeptAt, seeAll_cons]
      rw [see_of_family (by simp [Action.family])]
      obtain ⟨t, a, hsame, hacts⟩ := sigEventStop_seeAll s i f c
      rw [hacts]
      obtain ⟨hkept, howed⟩ := stopFamily_held (hheld.congr hsame) a
      exact settles_of_held trivial (held_of_owed_nil hkept howed)
  | deviceDisconnected =>
      exact hquiet ((usbnetLinkChange_sameAt s .down f).trans (mainQuit_sameAt _ f))
        ((usbnetLinkChange_quiet s .down).append (usbnetLinkChange_quiet _ .down))
  | voiceNetworkStateChanged psAttachedState now =>
      simp only [handle, voiceNetworkStateChanged]
      split
      · refine hquiet ⟨rfl, rfl, rfl⟩ ?_
        split <;> simp [Quiet, Action.family]
      · exact hquiet ⟨rfl, rfl, rfl⟩ (by simp [Quiet])
  | dataCallListChanged now =>
      simp only [handle, dataCallListChanged]
      refine hquiet ?_ (by simp [Quiet, Action.family])
      split <;> exact ⟨rfl, rfl, rfl⟩
  | modemReportReset =>
      exact hquiet (mainQuit_sameAt s f) (sendQuit_quiet.append (usbnetLinkChange_quiet s .down))
  | loopbackConfigInd loopbackState =>
      simp only [handle]
      refine hquiet ⟨rfl, rfl, ?_⟩ ?_
      · cases f <;> rfl
      · split <;> simp [Quiet, Action.family]
  | hangup =>
      exact hquiet (mainQuit_sameAt s f) (sendQuit_quiet.append (usbnetLinkChange_quiet s .down))

/-- A start and a check do not leave the loop. -/
theorem handle_running {w : ℕ} {s : Cm} {f : IpFamily} {c : Calls} {e : Event}
    (hbad : ¬ KeptAt w s c f e) : (handle w s e).1.running = s.running := by
  cases e with
  | start i =>
      have hback : ∀ t : Cm, (backOff w t i.finished).1.running = t.running := by
        intro t
        unfold backOff
        split
        · rfl
        · split <;> rfl
      simp only [handle, sigEventStart]
      split
      · rfl
      · split
        · rfl
        · exact (hback _).trans ((startIpv6_touches _ i).running.trans
            (startIpv4_touches s i).running)
  | check i =>
      have hlink : ∀ t : Cm, (linkAfterCheck t).1.running = t.running := by
        intro t
        unfold linkAfterCheck
        split
        · exact (usbnetLinkChange_touches t _ .v4).running
        · split
          · exact (usbnetLinkChange_touches t _ .v4).running
          · rfl
      exact (hlink _).trans ((checkIpv6_touches _ i).running.trans
        ((checkIpv4_touches _ i).running.trans (checkRegistration_touches s i .v4).running))
  | _ => exact absurd trivial hbad

/-! ### Steps -/

/-- The calls of all families are in order. -/
def World.Ordered (x : World) : Prop := ∀ f, Held f x.cm (x.calls f)

theorem noOrphan_of_ordered {w : ℕ} {x : World} (h : x.Ordered) : NoOrphan w x := by
  refine ⟨fun f => (h f).kept, fun i y hs f _ => ?_⟩
  obtain ⟨cm, -, rfl⟩ := Option.map_eq_some_iff.1 hs
  obtain ⟨t, a, hsame, hacts⟩ := sigEventStop_seeAll x.cm i f (x.calls f)
  simp only [handle, seeAll_cons]
  rw [see_of_family (by simp [Action.family]), hacts]
  exact (stopFamily_held ((h f).congr hsame) a).2

/-- A stop that comes now leaves the call that is orphaned. -/
theorem not_noOrphan_of_orphaned {w : ℕ} {x : World} {f : IpFamily}
    (hrunning : x.cm.running = true) (h : Orphaned f x.cm (x.calls f)) : ¬ NoOrphan w x := by
  intro hno
  let i : StopInput := ⟨.failed 0, .failed 0⟩
  have hstop : QuectelCM.step w x.cm (.stop i) = some (handle w x.cm (.stop i)).1 := if_pos hrunning
  have hempty := hno.2 i _ (by rw [World.step, hstop]; rfl) f h.enable
  obtain ⟨t, a, hsame, hacts⟩ := sigEventStop_seeAll x.cm i f (x.calls f)
  simp only [handle, seeAll_cons] at hempty
  rw [see_of_family (by simp [Action.family]), hacts] at hempty
  exact stopFamily_orphaned (h.congr hsame) a hempty

theorem ordered_step {w : ℕ} {x y : World} {e : WorldEvent} (h : x.Ordered) (hkept : Kept w x e)
    (hs : x.step w e = some y) : y.Ordered := by
  cases e with
  | loop e =>
      obtain ⟨cm, hcm, rfl⟩ := Option.map_eq_some_iff.1 hs
      obtain ⟨-, rfl⟩ := step_eq hcm
      exact fun f => (handle_settles w (h f) e).held (hkept f)
  | ended f =>
      obtain rfl := Option.some.inj hs
      intro g
      by_cases hg : g = f
      · subst hg
        exact held_of_owed_nil (by simp [(h g).kept]) (by simp)
      · simpa [hg] using h g

theorem orphaned_step {w : ℕ} {x y : World} {e : WorldEvent} (h : x.Ordered)
    (hkept : ¬ Kept w x e) (hs : x.step w e = some y) : ¬ NoOrphan w y := by
  cases e with
  | loop e =>
      obtain ⟨f, hbad⟩ := not_forall.1 hkept
      obtain ⟨cm, hcm, rfl⟩ := Option.map_eq_some_iff.1 hs
      obtain ⟨hrunning, rfl⟩ := step_eq hcm
      exact not_noOrphan_of_orphaned ((handle_running hbad).trans hrunning)
        ((handle_settles w (h f) e).orphaned hbad)
  | ended f => exact absurd trivial hkept

/-! ### Whole runs -/

/-- **In every state of a run a stop would leave no call up, and no handle has been lost, exactly
when no answer of the run loses a call.** -/
theorem noOrphan_iff (w : ℕ) (profile : Profile) (psAttachedState : UInt8) (sLink : Option Link)
    (wdsConnectionHandle : IpFamily → UInt32) (now : ℕ) (evs : List WorldEvent) :
    (∀ x ∈ EventRun.states (World.step w)
        (.start w profile psAttachedState sLink wdsConnectionHandle now) evs, NoOrphan w x) ↔
      ∀ m ∈ EventRun.moves (World.step w)
        (.start w profile psAttachedState sLink wdsConnectionHandle now) evs, Kept w m.1 m.2 :=
  EventRun.holds_iff World.Ordered (NoOrphan w) (fun _ _ => True) (Kept w)
    (fun _ h => noOrphan_of_ordered h) (fun _ _ _ h _ hkept hs => ordered_step h hkept hs)
    (fun _ _ _ h _ hkept hs => orphaned_step h hkept hs)
    (fun _ => held_of_owed_nil rfl rfl) (fun _ _ => trivial)

/-- The modem sets up the call 7. -/
def startedResp : List UInt8 :=
  [0x01, 26, 0, 0x80, 0x01, 1, 0x02, 1, 0, 0x20, 0, 14, 0, 0x02, 4, 0, 0, 0, 0, 0, 0x01, 4, 0,
    7, 0, 0, 0]

/-- The call is set up, its addresses cannot be fetched, and the program is stopped. -/
theorem not_noOrphan : ¬ ∀ (profile : Profile) (evs : List WorldEvent),
    ∀ x ∈ EventRun.states (World.step 64) (.start 64 profile 1 none (fun _ => 0) 0) evs,
      NoOrphan 64 x := by
  intro hall
  let i : StartInput :=
    ⟨.response startedResp, .failed 110, .failed 110, .failed 110, .failed 110, 0, 0, 0⟩
  let cm := (sigEventStart 64 (QuectelCM.start 64 (.default true false) 1 none (fun _ => 0) 0) i).1
  have hno : NoOrphan 64 ⟨cm, fun f => Calls.seeAll f ⟨[], false⟩ (.alarm 0 ::
      (sigEventStart 64 (QuectelCM.start 64 (.default true false) 1 none (fun _ => 0) 0) i).2)⟩ :=
    hall (.default true false) [.loop (.start i)] _
      (List.mem_cons_of_mem _ (EventRun.mem_states_self _ []))
  have hempty := hno.2 ⟨.failed 110, .failed 110⟩ _ rfl .v4 (by decide +kernel)
  exact absurd hempty (by decide +kernel)

end QuectelCM

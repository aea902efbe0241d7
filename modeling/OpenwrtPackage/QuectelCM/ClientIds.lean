/-
**The client ids of the QMI back-end.**

`QmiWwanInit` asks the modem for a client id of each service that the program uses, and keeps the
ids in the table `qmiclientId`.  The index in the table is the type of the service, but for the
second client of `QMUX_TYPE_WDS`, which has the index `QMUX_TYPE_WDS_IPV6`.  `QmiWwanDeInit` walks
over the table and releases each id under its index.

* `QuectelCM.qmiWwanInit`, `QuectelCM.qmiWwanDeInit` — the two functions;
* `QuectelCM.granted`, `QuectelCM.released` — the client ids that the messages grant and release;
* `QuectelCM.released_perm_iff` — **what is granted is released exactly when no second client of
  `QMUX_TYPE_WDS` is granted, and no id 0**;
* `QuectelCM.qmiWwanDeInit_table` — the table is empty afterwards;
* `QuectelCM.released_ipv6` — the second client is released under a service that is not its own.
-/
import Mathlib.Data.List.FinRange
import Mathlib.Data.List.Perm.Subperm
import Mathlib.Logic.Function.Basic
import OpenwrtPackage.Qmi.Qmux

set_option relaxedAutoImplicit false
set_option autoImplicit false

namespace QuectelCM

open Qmi Bytes

/-! ### Services -/

/-- `sizeof(qmiclientId)`: `QMUX_TYPE_ALL` -/
def qmuxTypeAll : ℕ := 0xFF

/-- An index of the table. -/
abbrev Slot := Fin qmuxTypeAll

def wdsSlot : Slot := ⟨0x01, by decide⟩

def dmsSlot : Slot := ⟨0x02, by decide⟩

def nasSlot : Slot := ⟨0x03, by decide⟩

def qosSlot : Slot := ⟨0x04, by decide⟩

def uimSlot : Slot := ⟨0x0B, by decide⟩

/-- `QMUX_TYPE_WDS_IPV6`, which is no service of the modem. -/
def wdsIpv6Slot : Slot := ⟨0x11, by decide⟩

def wdsAdminSlot : Slot := ⟨0x1A, by decide⟩

def coexSlot : Slot := ⟨0x22, by decide⟩

/-- An index as a type of a service. -/
def Slot.qmiType (i : Slot) : UInt8 := UInt8.ofNat i

/-- How the program is built. -/
structure BuildOptions where
  configCoexWwanState : Bool
  configEnableQos : Bool

/-! ### Control messages -/

/-- `GetQCTLTransactionId` -/
def getQCTLTransactionId (transactionId : ℕ) : ℕ :=
  if 0xFF < transactionId + 1 then 1 else transactionId + 1

/-- `sizeof(QCQMICTL_MSG_HDR)` -/
def qcqmictlMsgHdrSize : ℕ := 6

/-- `ComposeQCTLMsg`, with the bytes that the function behind it writes. -/
def composeQCTLMsg (transactionId : UInt8) (type : ℕ) (params : List UInt8) : List UInt8 :=
  usbCtlMsgTypeQmi :: le16 (params.length + qcqmictlMsgHdrSize + qcqmiHdrSize - 1) ++
    [0x00, qmuxTypeCtl, 0x00, 0x00, transactionId] ++ le16 type ++ le16 params.length ++ params

/-- `CtlGetClientIdReq` -/
def ctlGetClientIdReq (qmiType : UInt8) : List UInt8 := [0x01] ++ le16 1 ++ [qmiType]

/-- `CtlReleaseClientIdReq` -/
def ctlReleaseClientIdReq (qmiType clientId : UInt8) : List UInt8 :=
  [0x01] ++ le16 2 ++ [qmiType, clientId]

/-- `CtlGetVersionReq` -/
def ctlGetVersionReq : List UInt8 := [0x01] ++ le16 1 ++ [0xFF]

def qmiMessageCtlInternalProxyOpen : ℕ := 0xFF00

/-- `CtlLibQmiProxyOpenReq` -/
def ctlLibQmiProxyOpenReq (devicePath : List UInt8) : List UInt8 :=
  [0x01] ++ le16 devicePath.length ++ devicePath

/-- A request, and the response that the program gets for it. -/
abbrev Exchange := List UInt8 × Option (List UInt8)

/-- The variables of `QmiWwanCM.c`, and what has been exchanged with the modem. -/
structure Wwan where
  transactionId : ℕ
  qmiclientId : Slot → UInt8
  exchanges : List Exchange

/-- At the start of the program the table is empty. -/
def Wwan.start (transactionId : ℕ) : Wwan := ⟨transactionId, fun _ => 0, []⟩

/-- `QmiThreadSendQMI(ComposeQCTLMsg(…), &pResponse)` -/
def Wwan.send (s : Wwan) (type : ℕ) (params : List UInt8) (pResponse : Option (List UInt8)) :
    Wwan :=
  let t := getQCTLTransactionId s.transactionId
  { s with
    transactionId := t
    exchanges := s.exchanges ++ [(composeQCTLMsg (UInt8.ofNat t) type params, pResponse)] }

/-! ### `QmiWwanInit` and `QmiWwanDeInit` -/

/-- What `QmiWwanGetClientID` returns: the id in a response that is no error and is about this
service, and else 0. -/
def clientIdOf (qmiType : UInt8) : Option (List UInt8) → UInt8
  | some m =>
      if rspQmiResult m = 0 ∧ rspQmiError m = 0 ∧ qmiType = rspQmiType m then rspClientId m else 0
  | none => 0

/-- `qmiclientId[i] = QmiWwanGetClientID(qmiType)` -/
def qmiWwanGetClientID (rsp : Slot → Option (List UInt8)) (s : Wwan) (a : Slot × UInt8) : Wwan :=
  { s.send qmictlGetClientIdReq (ctlGetClientIdReq a.2) (rsp a.1) with
    qmiclientId := Function.update s.qmiclientId a.1 (clientIdOf a.2 (rsp a.1)) }

/-- The indices that `QmiWwanInit` fills, each with the service of which it asks for an id. -/
def allocations (o : BuildOptions) (enableIpv6 : Bool) : List (Slot × UInt8) :=
  [(wdsSlot, 0x01)] ++ (if enableIpv6 then [(wdsIpv6Slot, 0x01)] else []) ++
    [(dmsSlot, 0x02), (nasSlot, 0x03), (uimSlot, 0x0B), (wdsAdminSlot, 0x1A)] ++
    (if o.configCoexWwanState then [(coexSlot, 0x22)] else []) ++
    (if o.configEnableQos then [(qosSlot, 0x04)] else [])

/-- `profile->proxy`. -/
inductive Proxy where
  /-- the empty string -/
  | none
  /-- `LIBQMI_PROXY` -/
  | libqmi
  | other
  deriving DecidableEq

/-- The fields of the profile that `QmiWwanInit` reads. -/
structure InitProfile where
  proxy : Proxy
  qmichannel : List UInt8
  enableIpv6 : Bool

/-- What comes back while `QmiWwanInit` runs. -/
structure InitInput where
  /-- the result of `libqmi_proxy_open` -/
  libqmiProxyOpen : ℤ
  /-- the result of each `QMICTL_SYNC_REQ` -/
  sync : ℕ → ℤ
  /-- the response to the request for the id with this index -/
  clientId : Slot → Option (List UInt8)

/-- The loop of `QMICTL_SYNC_REQ`, from its round `i` with `n` rounds left. -/
def syncLoop (sync : ℕ → ℤ) : ℕ → ℕ → Wwan → ℤ × Wwan
  | 0, i, s => (sync (i - 1), s)
  | n + 1, i, s =>
      let s := s.send qmictlSyncReq [] none
      if sync i = 0 then (0, s) else syncLoop sync n (i + 1) s

/-- What comes before the ids: the result and the state. -/
def openChannel (p : InitProfile) (i : InitInput) (s : Wwan) : ℤ × Wwan :=
  match p.proxy with
  | .libqmi =>
      (i.libqmiProxyOpen, s.send qmiMessageCtlInternalProxyOpen (ctlLibQmiProxyOpenReq p.qmichannel)
        none)
  | .none => syncLoop i.sync 10 0 s
  | .other => (0, s)

/-- `QmiWwanInit`: the result and the state. -/
def qmiWwanInit (o : BuildOptions) (p : InitProfile) (i : InitInput) (s : Wwan) : ℤ × Wwan :=
  let r := openChannel p i s
  if r.1 ≠ 0 then r
  else
    let s := r.2.send qmictlGetVersionReq ctlGetVersionReq none
    (0, (allocations o p.enableIpv6).foldl (qmiWwanGetClientID i.clientId) s)

/-- A round of `QmiWwanDeInit`, with `QmiWwanReleaseClientID`. -/
def releaseSlot (s : Wwan) (i : Slot) : Wwan :=
  if s.qmiclientId i ≠ 0 then
    { s.send qmictlReleaseClientIdReq (ctlReleaseClientIdReq i.qmiType (s.qmiclientId i)) none with
      qmiclientId := Function.update s.qmiclientId i 0 }
  else s

/-- `QmiWwanDeInit` -/
def qmiWwanDeInit (s : Wwan) : Wwan := (List.finRange qmuxTypeAll).foldl releaseSlot s

/-! ### What should hold -/

/-- The id that a response grants of a service. -/
def grantOf (qmiType : UInt8) : Option (List UInt8) → Option UInt8
  | some m =>
      if rspQmiResult m = 0 ∧ rspQmiError m = 0 ∧ rspQmiType m = qmiType then some (rspClientId m)
      else none
  | none => none

/-- The service and the id that an exchange grants. -/
def grant (x : Exchange) : Option (UInt8 × UInt8) :=
  if qmictlType x.1 = qmictlGetClientIdReq then
    (grantOf (reqQmiType x.1) x.2).map (reqQmiType x.1, ·)
  else none

/-- The service and the id that an exchange releases. -/
def release (x : Exchange) : Option (UInt8 × UInt8) :=
  if qmictlType x.1 = qmictlReleaseClientIdReq then some (reqQmiType x.1, reqClientId x.1) else none

def granted (s : Wwan) : List (UInt8 × UInt8) := s.exchanges.filterMap grant

def released (s : Wwan) : List (UInt8 × UInt8) := s.exchanges.filterMap release

/-- `QmiWwanInit` gives up before it asks for an id. -/
def GivesUp (p : InitProfile) (i : InitInput) : Prop :=
  p.proxy = .libqmi ∧ i.libqmiProxyOpen ≠ 0 ∨ p.proxy = .none ∧ ∀ k < 10, i.sync k ≠ 0

/-- The modem grants no id 0, and no second id of `QMUX_TYPE_WDS`. -/
structure OneEach (o : BuildOptions) (enableIpv6 : Bool) (i : InitInput) : Prop where
  pos : ∀ a ∈ allocations o enableIpv6, grantOf a.2 (i.clientId a.1) ≠ some 0
  ipv6 : enableIpv6 = true → grantOf 0x01 (i.clientId wdsIpv6Slot) = none

/-! ### What the messages say -/

theorem qmictlType_compose (t : UInt8) {type : ℕ} (h : type < 65536) (params : List UInt8) :
    qmictlType (composeQCTLMsg t type params) = type := by
  have hdrop : (composeQCTLMsg t type params).drop 8 =
      le16 type ++ (le16 params.length ++ params) := rfl
  have hread := le16At_drop (composeQCTLMsg t type params) 8 0
  rw [hdrop, le16At_le16, Nat.mod_eq_of_lt h] at hread
  exact hread.symm

theorem filterMap_one {α β : Type} (f : α → Option β) (a : α) : [a].filterMap f = (f a).toList := by
  cases h : f a <;> simp [h]

section

variable {s : Wwan} {params : List UInt8} {pResponse : Option (List UInt8)} {type : ℕ}

theorem granted_send : granted (s.send type params pResponse) =
    granted s ++ (grant (composeQCTLMsg (UInt8.ofNat (getQCTLTransactionId s.transactionId)) type
      params, pResponse)).toList := by
  rw [granted, Wwan.send, List.filterMap_append, filterMap_one]
  rfl

theorem released_send : released (s.send type params pResponse) =
    released s ++ (release (composeQCTLMsg (UInt8.ofNat (getQCTLTransactionId s.transactionId)) type
      params, pResponse)).toList := by
  rw [released, Wwan.send, List.filterMap_append, filterMap_one]
  rfl

/-- A message about something else. -/
theorem send_other (h : type < 65536) (hget : type ≠ qmictlGetClientIdReq)
    (hrelease : type ≠ qmictlReleaseClientIdReq) :
    granted (s.send type params pResponse) = granted s ∧
      released (s.send type params pResponse) = released s := by
  constructor
  · rw [granted_send, grant, qmictlType_compose _ h, if_neg hget, Option.toList_none,
      List.append_nil]
  · rw [released_send, release, qmictlType_compose _ h, if_neg hrelease, Option.toList_none,
      List.append_nil]

theorem send_get (qmiType : UInt8) :
    granted (s.send qmictlGetClientIdReq (ctlGetClientIdReq qmiType) pResponse) =
        granted s ++ ((grantOf qmiType pResponse).map (qmiType, ·)).toList ∧
      released (s.send qmictlGetClientIdReq (ctlGetClientIdReq qmiType) pResponse) =
        released s := by
  constructor
  · rw [granted_send, grant, qmictlType_compose _ (by decide), if_pos rfl]
    rfl
  · rw [released_send, release, qmictlType_compose _ (by decide), if_neg (by decide),
      Option.toList_none, List.append_nil]

theorem send_release (qmiType clientId : UInt8) :
    granted (s.send qmictlReleaseClientIdReq (ctlReleaseClientIdReq qmiType clientId) pResponse) =
        granted s ∧
      released (s.send qmictlReleaseClientIdReq (ctlReleaseClientIdReq qmiType clientId)
        pResponse) = released s ++ [(qmiType, clientId)] := by
  constructor
  · rw [granted_send, grant, qmictlType_compose _ (by decide), if_neg (by decide),
      Option.toList_none, List.append_nil]
  · rw [released_send, release, qmictlType_compose _ (by decide), if_pos rfl]
    rfl

end

/-! ### The loops -/

/-- What `QmiWwanDeInit` releases for the index `j`. -/
def releaseOf (table : Slot → UInt8) (j : Slot) : Option (UInt8 × UInt8) :=
  if table j ≠ 0 then some (j.qmiType, table j) else none

theorem releaseSlot_spec (s : Wwan) (i : Slot) :
    (granted (releaseSlot s i) = granted s ∧
      released (releaseSlot s i) = released s ++ (releaseOf s.qmiclientId i).toList) ∧
      (releaseSlot s i).qmiclientId = Function.update s.qmiclientId i 0 := by
  unfold releaseSlot releaseOf
  by_cases h : s.qmiclientId i = 0
  · rw [if_neg (not_not_intro h), if_neg (not_not_intro h)]
    refine ⟨⟨rfl, (List.append_nil _).symm⟩, ?_⟩
    rw [← h, Function.update_eq_self]
  · rw [if_pos h, if_pos h]
    exact ⟨send_release _ _, rfl⟩

theorem foldl_releaseSlot {l : List Slot} (hl : l.Nodup) (s : Wwan) :
    (granted (l.foldl releaseSlot s) = granted s ∧
      released (l.foldl releaseSlot s) = released s ++ l.filterMap (releaseOf s.qmiclientId)) ∧
      ∀ j, (l.foldl releaseSlot s).qmiclientId j = if j ∈ l then 0 else s.qmiclientId j := by
  induction l generalizing s with
  | nil => exact ⟨⟨rfl, (List.append_nil _).symm⟩, fun j => (if_neg (List.not_mem_nil)).symm⟩
  | cons i l ih =>
      obtain ⟨hi, hl⟩ := List.nodup_cons.1 hl
      obtain ⟨⟨hgranted, hreleased⟩, htable⟩ := releaseSlot_spec s i
      obtain ⟨⟨ihgranted, ihreleased⟩, ihtable⟩ := ih hl (releaseSlot s i)
      -- No slot comes twice: the slots behind `i` still hold what they held at the start.
      have hrest : l.filterMap (releaseOf (releaseSlot s i).qmiclientId) =
          l.filterMap (releaseOf s.qmiclientId) := by
        refine List.filterMap_congr fun j hj => ?_
        have hne : j ≠ i := fun heq => hi (heq ▸ hj)
        rw [releaseOf, releaseOf, htable, Function.update_of_ne hne]
      rw [List.foldl_cons]
      refine ⟨⟨ihgranted.trans hgranted, ?_⟩, fun j => ?_⟩
      · rw [ihreleased, hreleased, hrest, List.append_assoc, ← filterMap_one,
          ← List.filterMap_append, List.singleton_append]
      · rw [ihtable, htable]
        by_cases hj : j = i
        · subst hj
          rw [if_neg hi, Function.update_self, if_pos (List.mem_cons_self ..)]
        · rw [Function.update_of_ne hj]
          simp [hj]

section

variable {rsp : Slot → Option (List UInt8)}

/-- What is granted for an allocation. -/
def grantFor (rsp : Slot → Option (List UInt8)) (a : Slot × UInt8) : Option (UInt8 × UInt8) :=
  (grantOf a.2 (rsp a.1)).map (a.2, ·)

theorem foldl_getClientID {as : List (Slot × UInt8)} (has : (as.map Prod.fst).Nodup) (s : Wwan) :
    (granted (as.foldl (qmiWwanGetClientID rsp) s) = granted s ++ as.filterMap (grantFor rsp) ∧
      released (as.foldl (qmiWwanGetClientID rsp) s) = released s) ∧
      (∀ a ∈ as, (as.foldl (qmiWwanGetClientID rsp) s).qmiclientId a.1 =
        clientIdOf a.2 (rsp a.1)) ∧
      ∀ j ∉ as.map Prod.fst, (as.foldl (qmiWwanGetClientID rsp) s).qmiclientId j =
        s.qmiclientId j := by
  induction as generalizing s with
  | nil => exact ⟨⟨(List.append_nil _).symm, rfl⟩, by simp, fun j _ => rfl⟩
  | cons a as ih =>
      obtain ⟨ha, has⟩ := List.nodup_cons.1 has
      have hsend := @send_get s (rsp a.1) a.2
      obtain ⟨⟨ihgranted, ihreleased⟩, ihown, ihother⟩ := ih has (qmiWwanGetClientID rsp s a)
      rw [List.foldl_cons]
      refine ⟨⟨?_, ihreleased.trans hsend.2⟩, fun b hb => ?_, fun j hj => ?_⟩
      · have hgranted : granted (qmiWwanGetClientID rsp s a) =
            granted s ++ (grantFor rsp a).toList := hsend.1
        rw [ihgranted, hgranted, List.append_assoc, ← filterMap_one, ← List.filterMap_append,
          List.singleton_append]
      -- The service of `a` is not asked for again, so its slot keeps the id.
      · rcases List.mem_cons.1 hb with rfl | hb
        · rw [ihother _ ha]
          exact Function.update_self ..
        · exact ihown b hb
      · obtain ⟨hne, hj⟩ := not_or.1 (mt List.mem_cons.2 hj)
        rw [ihother j hj]
        exact Function.update_of_ne hne ..

end

/-- **The table is empty after `QmiWwanDeInit`**, so that the next `QmiWwanInit` starts from an
empty one too. -/
theorem qmiWwanDeInit_table (s : Wwan) (j : Slot) : (qmiWwanDeInit s).qmiclientId j = 0 := by
  rw [qmiWwanDeInit, (foldl_releaseSlot (List.nodup_finRange _) s).2 j,
    if_pos (List.mem_finRange j)]

/-! ### `QmiWwanInit` followed by `QmiWwanDeInit` -/

theorem syncLoop_spec (sync : ℕ → ℤ) (n i : ℕ) (s : Wwan) :
    (granted (syncLoop sync n i s).2 = granted s ∧ released (syncLoop sync n i s).2 = released s) ∧
      (syncLoop sync n i s).2.qmiclientId = s.qmiclientId := by
  induction n generalizing i s with
  | zero => exact ⟨⟨rfl, rfl⟩, rfl⟩
  | succ n ih =>
      have hsend := @send_other s [] none qmictlSyncReq (by decide) (by decide) (by decide)
      unfold syncLoop
      dsimp only
      split
      · exact ⟨hsend, rfl⟩
      · obtain ⟨⟨hgranted, hreleased⟩, htable⟩ := ih (i + 1) (s.send qmictlSyncReq [] none)
        exact ⟨⟨hgranted.trans hsend.1, hreleased.trans hsend.2⟩, htable⟩

/-- The loop fails when all its rounds do; before the first round it has a predecessor that
failed. -/
theorem syncLoop_ne_zero_iff (sync : ℕ → ℤ) (n i : ℕ) (s : Wwan) (hsome : 0 < i + n)
    (hprev : 0 < i → sync (i - 1) ≠ 0) :
    (syncLoop sync n i s).1 ≠ 0 ↔ ∀ k, i ≤ k → k < i + n → sync k ≠ 0 := by
  induction n generalizing i s with
  | zero => exact ⟨fun _ k hk hlt => absurd hlt (by omega), fun _ => hprev (by omega)⟩
  | succ n ih =>
      unfold syncLoop
      dsimp only
      by_cases h : sync i = 0
      · rw [if_pos h]
        exact ⟨fun hne => absurd rfl hne, fun hall => absurd h (hall i (by omega) (by omega))⟩
      · rw [if_neg h, ih (i + 1) _ (by omega) (fun _ => h)]
        constructor
        · intro hall k hk hlt
          by_cases heq : k = i
          · exact heq ▸ h
          · exact hall k (by omega) (by omega)
        · exact fun hall k hk hlt => hall k (by omega) (by omega)

theorem openChannel_spec (p : InitProfile) (i : InitInput) (s : Wwan) :
    (granted (openChannel p i s).2 = granted s ∧ released (openChannel p i s).2 = released s) ∧
      (openChannel p i s).2.qmiclientId = s.qmiclientId := by
  unfold openChannel
  split
  · exact ⟨send_other (by decide) (by decide) (by decide), rfl⟩
  · exact syncLoop_spec _ _ _ _
  · exact ⟨⟨rfl, rfl⟩, rfl⟩

theorem openChannel_ne_zero_iff (p : InitProfile) (i : InitInput) (s : Wwan) :
    (openChannel p i s).1 ≠ 0 ↔ GivesUp p i := by
  unfold openChannel GivesUp
  cases hp : p.proxy with
  | libqmi => simp
  | none =>
      have hloop := syncLoop_ne_zero_iff i.sync 10 0 s (by decide) (fun h => absurd h (by decide))
      simp only [reduceCtorEq, false_and, true_and, false_or]
      exact hloop.trans ⟨fun h k hk => h k (Nat.zero_le k) (by omega),
        fun h k _ hk => h k (by omega)⟩
  | other => simp

/-- `QmiWwanInit` of a program with an empty table, and `QmiWwanDeInit`. -/
def session (o : BuildOptions) (p : InitProfile) (i : InitInput) (transactionId : ℕ) : Wwan :=
  qmiWwanDeInit (qmiWwanInit o p i (Wwan.start transactionId)).2

theorem clientIdOf_eq (qmiType : UInt8) (rsp : Option (List UInt8)) :
    clientIdOf qmiType rsp = (grantOf qmiType rsp).getD 0 := by
  unfold clientIdOf grantOf
  cases rsp with
  | none => rfl
  | some m =>
      dsimp only
      by_cases h : rspQmiResult m = 0 ∧ rspQmiError m = 0 ∧ rspQmiType m = qmiType
      · rw [if_pos h, if_pos ⟨h.1, h.2.1, h.2.2.symm⟩, Option.getD_some]
      · rw [if_neg h, if_neg fun hc => h ⟨hc.1, hc.2.1, hc.2.2.symm⟩, Option.getD_none]

theorem allocations_nodup (o : BuildOptions) (enableIpv6 : Bool) :
    ((allocations o enableIpv6).map Prod.fst).Nodup := by
  obtain ⟨coex, qos⟩ := o
  cases coex <;> cases qos <;> cases enableIpv6 <;> decide

/-- Only the second client of `QMUX_TYPE_WDS` has an index that is not its service. -/
theorem allocations_qmiType (o : BuildOptions) (enableIpv6 : Bool) :
    ∀ a ∈ allocations o enableIpv6, a.2 ≠ wdsIpv6Slot.qmiType ∧
      (a.1.qmiType = a.2 ∨ a = (wdsIpv6Slot, 0x01) ∧ enableIpv6 = true) := by
  rw [← List.forall_iff_forall_mem]
  obtain ⟨coex, qos⟩ := o
  cases coex <;> cases qos <;> cases enableIpv6 <;> decide

theorem mem_allocations_ipv6 (o : BuildOptions) :
    (wdsIpv6Slot, 0x01) ∈ allocations o true := by
  simp [allocations]

theorem qmiType_inj {i j : Slot} (h : i.qmiType = j.qmiType) : i = j := by
  have hi := i.isLt
  have hj := j.isLt
  have hnat := congrArg UInt8.toNat h
  simp only [Slot.qmiType, UInt8.toNat_ofNat', qmuxTypeAll] at hnat hi hj
  exact Fin.ext (by omega)

theorem releaseOf_inj (table : Slot → UInt8) : ∀ i j : Slot, ∀ b ∈ releaseOf table i,
    b ∈ releaseOf table j → i = j := by
  intro i j b hi hj
  have htype : ∀ k : Slot, b ∈ releaseOf table k → b.1 = k.qmiType := by
    intro k hk
    obtain ⟨-, heq⟩ := Option.ite_none_right_eq_some.1 hk
    rw [← Option.some.inj heq]
  exact qmiType_inj ((htype i hi).symm.trans (htype j hj))

/-- When the table is empty but for some indices, these are what is released. -/
theorem released_perm {table : Slot → UInt8} {l : List Slot} (hl : l.Nodup)
    (hother : ∀ j ∉ l, table j = 0) :
    ((List.finRange qmuxTypeAll).filterMap (releaseOf table)).Perm
      (l.filterMap (releaseOf table)) := by
  refine (List.perm_ext_iff_of_nodup ((List.nodup_finRange _).filterMap (releaseOf_inj table))
    (hl.filterMap (releaseOf_inj table))).2 fun b => ?_
  simp only [List.mem_filterMap, List.mem_finRange, true_and]
  constructor
  · rintro ⟨j, hj⟩
    refine ⟨j, ?_, hj⟩
    by_contra hmem
    rw [releaseOf, hother j hmem, if_neg (by decide)] at hj
    cases hj
  · rintro ⟨j, -, hj⟩
    exact ⟨j, hj⟩

section

variable {o : BuildOptions} {p : InitProfile} {i : InitInput}

/-- The two lists of a session that does not give up. -/
theorem session_spec (h : ¬ GivesUp p i) (transactionId : ℕ) : ∃ table : Slot → UInt8,
    (∀ a ∈ allocations o p.enableIpv6, table a.1 = (grantOf a.2 (i.clientId a.1)).getD 0) ∧
      granted (session o p i transactionId) =
        (allocations o p.enableIpv6).filterMap (grantFor i.clientId) ∧
      (released (session o p i transactionId)).Perm
        ((allocations o p.enableIpv6).filterMap fun a => releaseOf table a.1) := by
  -- One step after the other: the channel is opened, the version is asked for, each service gets
  -- its id, and `qmi_deinit` walks over all slots.
  obtain ⟨⟨hgranted, hreleased⟩, htable⟩ := openChannel_spec p i (Wwan.start transactionId)
  have hversion := @send_other (openChannel p i (Wwan.start transactionId)).2 ctlGetVersionReq none
    qmictlGetVersionReq (by decide) (by decide) (by decide)
  obtain ⟨⟨hinit, hinit'⟩, hown, hother⟩ := @foldl_getClientID i.clientId _
    (allocations_nodup o p.enableIpv6) ((openChannel p i (Wwan.start transactionId)).2.send
      qmictlGetVersionReq ctlGetVersionReq none)
  obtain ⟨⟨hdeinit, hdeinit'⟩, -⟩ := foldl_releaseSlot (List.nodup_finRange qmuxTypeAll)
    ((allocations o p.enableIpv6).foldl (qmiWwanGetClientID i.clientId)
      ((openChannel p i (Wwan.start transactionId)).2.send qmictlGetVersionReq ctlGetVersionReq
        none))
  have hsession : session o p i transactionId = (List.finRange qmuxTypeAll).foldl releaseSlot
      ((allocations o p.enableIpv6).foldl (qmiWwanGetClientID i.clientId)
        ((openChannel p i (Wwan.start transactionId)).2.send qmictlGetVersionReq ctlGetVersionReq
          none)) := by
    have hzero : ¬ (openChannel p i (Wwan.start transactionId)).1 ≠ 0 :=
      mt (openChannel_ne_zero_iff p i _).1 h
    rw [session, qmiWwanInit]
    dsimp only
    rw [if_neg hzero]
    rfl
  refine ⟨((allocations o p.enableIpv6).foldl (qmiWwanGetClientID i.clientId)
    ((openChannel p i (Wwan.start transactionId)).2.send qmictlGetVersionReq ctlGetVersionReq
      none)).qmiclientId, fun a ha => (hown a ha).trans (clientIdOf_eq _ _), ?_, ?_⟩
  · rw [hsession, hdeinit, hinit, hversion.1, hgranted]
    rfl
  · rw [hsession, hdeinit', hinit', hversion.2, hreleased]
    have hperm := released_perm (allocations_nodup o p.enableIpv6) fun j hj =>
      (hother j hj).trans (congrFun htable j)
    rw [List.filterMap_map] at hperm
    exact hperm

/-- A session that gives up exchanges no ids. -/
theorem session_givesUp (h : GivesUp p i) (transactionId : ℕ) :
    granted (session o p i transactionId) = [] ∧ released (session o p i transactionId) = [] := by
  obtain ⟨⟨hgranted, hreleased⟩, htable⟩ := openChannel_spec p i (Wwan.start transactionId)
  obtain ⟨⟨hdeinit, hdeinit'⟩, -⟩ := foldl_releaseSlot (List.nodup_finRange qmuxTypeAll)
    (openChannel p i (Wwan.start transactionId)).2
  have hnone : (List.finRange qmuxTypeAll).filterMap
      (releaseOf (openChannel p i (Wwan.start transactionId)).2.qmiclientId) = [] := by
    refine List.filterMap_eq_nil_iff.2 fun j _ => ?_
    rw [htable]
    exact if_neg fun hne => hne rfl
  have hsession : session o p i transactionId = (List.finRange qmuxTypeAll).foldl releaseSlot
      (openChannel p i (Wwan.start transactionId)).2 := by
    rw [session, qmiWwanInit]
    dsimp only
    rw [if_pos ((openChannel_ne_zero_iff p i _).2 h)]
    rfl
  rw [hsession, hdeinit, hdeinit', hnone, hgranted, hreleased]
  exact ⟨rfl, rfl⟩

/-- What is released for an allocation is what is granted for it. -/
theorem releaseOf_eq_grantFor {table : Slot → UInt8} {a : Slot × UInt8} {enableIpv6 : Bool}
    (htable : table a.1 = (grantOf a.2 (i.clientId a.1)).getD 0)
    (ha : a ∈ allocations o enableIpv6) (h : OneEach o enableIpv6 i) :
    releaseOf table a.1 = grantFor i.clientId a := by
  rw [releaseOf, htable, grantFor]
  cases hgrant : grantOf a.2 (i.clientId a.1) with
  | none => exact if_neg (by decide)
  | some c =>
      have hc : c ≠ 0 := fun hzero => h.pos a ha (hgrant.trans (congrArg some hzero))
      have htype : a.1.qmiType = a.2 := by
        rcases (allocations_qmiType o enableIpv6 a ha).2 with htype | ⟨rfl, hipv6⟩
        · exact htype
        · rw [h.ipv6 hipv6] at hgrant
          cases hgrant
      rw [Option.getD_some, if_pos hc, htype, Option.map_some]

/-- A second client of `QMUX_TYPE_WDS` is released under the index that it has in the table. -/
theorem mem_released_ipv6 (h : ¬ GivesUp p i) (hipv6 : p.enableIpv6 = true) {c : UInt8}
    (hgrant : grantOf 0x01 (i.clientId wdsIpv6Slot) = some c) (hc : c ≠ 0) (transactionId : ℕ) :
    (wdsIpv6Slot.qmiType, c) ∈ released (session o p i transactionId) ∧
      (wdsIpv6Slot.qmiType, c) ∉ granted (session o p i transactionId) := by
  obtain ⟨table, htable, hgranted, hreleased⟩ := @session_spec o p i h transactionId
  have hmem : (wdsIpv6Slot, (0x01 : UInt8)) ∈ allocations o p.enableIpv6 :=
    hipv6 ▸ mem_allocations_ipv6 o
  constructor
  · refine hreleased.mem_iff.2 (List.mem_filterMap.2 ⟨_, hmem, ?_⟩)
    have hid := htable _ hmem
    rw [hgrant, Option.getD_some] at hid
    rw [releaseOf, hid]
    exact if_pos hc
  · rw [hgranted]
    intro hin
    obtain ⟨a, ha, heq⟩ := List.mem_filterMap.1 hin
    obtain ⟨d, -, hd⟩ := Option.map_eq_some_iff.1 heq
    exact (allocations_qmiType o p.enableIpv6 a ha).1 (congrArg Prod.fst hd)

/-- **What is granted is released, exactly when `QmiWwanInit` gives up before it asks, or the modem
grants no second id of `QMUX_TYPE_WDS`, and no id 0.** -/
theorem released_perm_iff (o : BuildOptions) (p : InitProfile) (i : InitInput)
    (transactionId : ℕ) :
    (released (session o p i transactionId)).Perm (granted (session o p i transactionId)) ↔
      GivesUp p i ∨ OneEach o p.enableIpv6 i := by
  by_cases hgives : GivesUp p i
  · obtain ⟨hgranted, hreleased⟩ := @session_givesUp o p i hgives transactionId
    rw [hgranted, hreleased]
    exact ⟨fun _ => .inl hgives, fun _ => .refl _⟩
  obtain ⟨table, htable, hgranted, hreleased⟩ := @session_spec o p i hgives transactionId
  rw [or_iff_right hgives]
  constructor
  · intro hperm
    have hpos : ∀ a ∈ allocations o p.enableIpv6, grantOf a.2 (i.clientId a.1) ≠ some 0 := by
      intro a ha hzero
      have hmem : (a.2, (0 : UInt8)) ∈ granted (session o p i transactionId) := by
        rw [hgranted]
        refine List.mem_filterMap.2 ⟨a, ha, ?_⟩
        rw [grantFor, hzero, Option.map_some]
      -- the table has no entry for an id 0
      obtain ⟨b, -, hb⟩ := List.mem_filterMap.1 (hreleased.mem_iff.1 (hperm.mem_iff.2 hmem))
      obtain ⟨hne, heq⟩ := Option.ite_none_right_eq_some.1 hb
      exact hne (congrArg Prod.snd (Option.some.inj heq))
    refine ⟨hpos, fun hipv6 => ?_⟩
    cases hgrant : grantOf 0x01 (i.clientId wdsIpv6Slot) with
    | none => rfl
    | some c =>
        have hc : c ≠ 0 := by
          rintro rfl
          exact hpos (wdsIpv6Slot, 0x01) (hipv6 ▸ mem_allocations_ipv6 o) hgrant
        obtain ⟨hin, hout⟩ := @mem_released_ipv6 o p i hgives hipv6 c hgrant hc transactionId
        exact absurd (hperm.mem_iff.1 hin) hout
  · intro hone
    rw [hgranted]
    refine hreleased.trans (List.Perm.of_eq (List.filterMap_congr fun a ha => ?_))
    exact releaseOf_eq_grantFor (htable a ha) ha hone

end

/-- A modem that grants the ids from 1 on: 1 and 2 for the two clients of `QMUX_TYPE_WDS`. -/
def grantingModem : InitInput where
  libqmiProxyOpen := 0
  sync := fun _ => 0
  clientId := fun i =>
    if i = wdsIpv6Slot then some (getClientIdResp 2 0x01 2)
    else some (getClientIdResp 1 i.qmiType 1)

/-- With IPv6 the second client is released under a service that is not its own. -/
theorem released_ipv6 : ¬ ∀ (o : BuildOptions) (p : InitProfile) (i : InitInput)
    (transactionId : ℕ),
    (released (session o p i transactionId)).Perm (granted (session o p i transactionId)) := by
  intro hall
  have hgives : ¬ GivesUp ⟨.other, [], true⟩ grantingModem := by
    rintro (⟨hc, -⟩ | ⟨hc, -⟩) <;> cases hc
  obtain ⟨hin, hout⟩ := @mem_released_ipv6 ⟨false, false⟩ ⟨.other, [], true⟩ grantingModem hgives
    rfl 2 (by decide) (by decide) 0
  exact hout ((hall _ _ _ _).mem_iff.1 hin)

end QuectelCM

/-
**A reset of the modem.**

A modem that has reset itself takes back the client ids it has granted, with an indication
`QMICTL_REVOKE_CLIENT_ID_IND`.  The proxy has a flag for it, at which the loop ends; but the flag is
set where responses are handled, and an indication does not get there.

* `QmiProxy.recvQmiFromDev_modemResetFlag` — the messages that set the flag;
* `QmiProxy.IsRevokeInd`, `QmiProxy.World.Noticed` — the indication, and the reaction to it;
* `QmiProxy.World.revokeInd_ignored` — the indication leaves the flag and the queue alone;
* `QmiProxy.World.not_noticed` — **the reset is never noticed**.
-/
import OpenwrtPackage.QmiProxy.World

set_option relaxedAutoImplicit false
set_option autoImplicit false

namespace QmiProxy

open Qmi

/-- The response branch sets the flag when a request waits whose client is still connected, and the
message is called a revocation. -/
theorem answerHead_modemResetFlag (p : Proxy) (m : List UInt8) :
    (answerHead p m).1.modemResetFlag = true ↔ p.modemResetFlag = true ∨
      qmictlType m = qmictlRevokeClientIdInd ∧
        ∃ q, p.qmiProxyCtlMsg.head? = some q ∧ q.clientFd ∈ p.fds := by
  unfold answerHead
  split
  · next hnil => simp [hnil]
  · next q rest hcons =>
      have hany : (p.qmiProxyConnection.any fun qmiCon => qmiCon.clientFd = q.clientFd) = true ↔
          q.clientFd ∈ p.fds := by
        rw [Proxy.fds, List.any_eq_true, List.mem_map]
        simp
      simp only [hcons, List.head?_cons, Option.some.injEq, exists_eq_left', Bool.or_eq_true,
        Bool.and_eq_true, decide_eq_true_eq, hany]

/-- **The messages that set the flag** are responses. -/
theorem recvQmiFromDev_modemResetFlag {p : Proxy} (hs : 0 < p.qmiProxyServerFd) (m : List UInt8) :
    (recvQmiFromDev p m).1.modemResetFlag = true ↔ p.modemResetFlag = true ∨
      IsCtlRsp m ∧ qmictlType m = qmictlRevokeClientIdInd ∧
        ∃ q, p.qmiProxyCtlMsg.head? = some q ∧ q.clientFd ∈ p.fds := by
  have hne : ¬ p.qmiProxyServerFd = -1 := by omega
  unfold recvQmiFromDev
  rw [if_neg hne]
  by_cases ht : qmiHdrQmiType m = qmuxTypeCtl
  · by_cases hf : ctlFlags m = qmictlCtlFlagRsp
    · have hrsp : IsCtlRsp m := ⟨ht, hf⟩
      rw [if_pos ht, if_pos hf]
      exact (answerHead_modemResetFlag p m).trans (by simp only [hrsp, true_and])
    · have hrsp : ¬ IsCtlRsp m := fun h => hf h.2
      rw [if_pos ht, if_neg hf]
      simp only [hrsp, false_and, or_false]
  · have hrsp : ¬ IsCtlRsp m := fun h => ht h.1
    rw [if_neg ht]
    simp only [hrsp, false_and, or_false]

/-- A `QMICTL_REVOKE_CLIENT_ID_IND` as its definition in `MPQCTL.h` has it. -/
structure IsRevokeInd (m : List UInt8) : Prop where
  ctl : qmiHdrQmiType m = qmuxTypeCtl
  indication : ctlFlags m = qmictlCtlFlagInd
  revoke : qmictlType m = qmictlRevokeClientIdInd

theorem IsRevokeInd.not_rsp {m : List UInt8} (h : IsRevokeInd m) : ¬ IsCtlRsp m := by
  intro hrsp
  have hflag := h.indication.symm.trans hrsp.2
  exact absurd hflag (by decide)

namespace World

/-- The reset is noticed, and no request that waits is lost. -/
structure Noticed (w w' : World) : Prop where
  flag : w'.proxy.modemResetFlag = true
  queue : w'.queue = w.queue

/-- The indication leaves the flag and the queue alone. -/
theorem revokeInd_ignored {w w' : World} (hi : w.Inv) {bytes : List UInt8}
    (hind : IsRevokeInd bytes) (h : w.step (.unsolicited bytes) = some w') :
    w'.proxy.modemResetFlag = false ∧ w'.queue = w.queue := by
  obtain ⟨hrunning, -, rfl⟩ := step_cases h
  constructor
  · rw [← Bool.not_eq_true]
    intro hflag
    rcases (recvQmiFromDev_modemResetFlag hi.serverOpen bytes).1 hflag with hset | ⟨hrsp, -⟩
    · rw [hrunning] at hset
      cases hset
    · exact hind.not_rsp hrsp
  · rw [afterDev_queue hi, if_neg hind.not_rsp]

/-- **In no run is the reset noticed**, whatever connections there are and whatever waits. -/
theorem not_noticed (serverFd : {fd : ℤ // 0 < fd}) (evs : List Event) :
    ∀ w ∈ EventRun.states step (start serverFd) evs, ∀ bytes, IsRevokeInd bytes →
      ∀ w', w.step (.unsolicited bytes) = some w' → ¬ Noticed w w' := by
  intro w hw bytes hind w' hstep hnoticed
  have hignored := (revokeInd_ignored (inv_of_mem_states hw) hind hstep).1
  rw [hnoticed.flag] at hignored
  cases hignored

/-- The indication comes before anybody has connected. -/
theorem not_noticed_start : ¬ Noticed (start sampleServerFd)
    ((start sampleServerFd).afterDev (revokeClientIdInd 1 1) []) :=
  not_noticed sampleServerFd [] _ (EventRun.mem_states_self ..) (revokeClientIdInd 1 1)
    ⟨rfl, rfl, rfl⟩ _ rfl

/-- The indication comes while a request of a client waits for its answer. -/
def revokedRun : List Event := [.accept 5, .request 5 (getClientIdReq 1 1)]

theorem revoked_not_noticed :
    ¬ ∀ (serverFd : {fd : ℤ // 0 < fd}) (evs : List Event),
      ∀ w ∈ EventRun.states step (start serverFd) evs, ∀ bytes, IsRevokeInd bytes →
        ∀ w', w.step (.unsolicited bytes) = some w' → Noticed w w' := by
  intro hall
  have hstuck : ∃ w ∈ EventRun.states step (start sampleServerFd) revokedRun,
      w.queue ≠ [] ∧ ∃ w' ∈ w.step (.unsolicited (revokeClientIdInd 1 1)),
        w'.proxy.modemResetFlag = false := by
    decide +kernel
  obtain ⟨w, hw, -, w', hstep, hflag⟩ := hstuck
  have hnoticed := hall _ _ w hw _ ⟨rfl, rfl, rfl⟩ w' hstep
  rw [hnoticed.flag] at hflag
  cases hflag

end World

end QmiProxy

/-
**Asking for a profile that does not exist.**

When the modem has no such profile, `requestGetProfile` creates it and asks again, with the modem's
answers as the only thing that ends the loop.  The QMI back-end does so when the modem gives the
error `QMI_ERR_EXTENDED_INTERNAL`, the AT back-end when it says `OK` without a line of `+QICSGP`.

* `QuectelCM.getProfileNext`, `QuectelCM.getProfileStart` — `requestGetProfile` of `QMIThread.c`,
  answer by answer, with `QuectelCM.after_rounds` — it is the function in rounds;
* `QuectelCM.Retries`, `Atc.Retries` — the answers that lead back to the first question;
* `QuectelCM.getProfile_ends_iff` — **both back-ends return exactly when in some round the modem
  answers otherwise**;
* `QuectelCM.getProfile_endless` — a modem that never does.
-/
import OpenwrtPackage.Atc.Profile

set_option relaxedAutoImplicit false
set_option autoImplicit false

namespace Atc

open QuectelCM

/-- In a round the modem has no answer to the question, and does what it is told. -/
def Retries (answers : ℕ → AtAnswer) : Prop :=
  (answers 0).err = atErrorInvalidResponse ∧ (answers 0).pResponse = none ∧
    (answers 1).lines.isSome

/-- `requestGetProfile` of `atc.c` sends only finitely many commands. -/
def GetProfileEnds (profile : Profile) (pdp : ℤ) (behind : CStr) (answers : ℕ → AtAnswer) : Prop :=
  Dialogue.Ends
    (getProfileNext { profile with iptype := enabledIptype profile } pdp behind) (.inl .query)
    answers

/-- A command for which the answer is not waited for again is the last but one. -/
theorem ends_of_cgdcont {profile : Profile} {pdp : ℤ} {behind : CStr} {answers : ℕ → AtAnswer}
    {n : ℕ} (h : Dialogue.after (getProfileNext profile pdp behind) (.inl .query) answers n =
      .inl .cgdcont) :
    Dialogue.Ends (getProfileNext profile pdp behind) (.inl .query) answers := by
  refine Dialogue.ends_iff.2 ⟨n + 1, ?_⟩
  rw [Dialogue.after_succ_of_inl h, getProfileNext]
  cases (answers n).lines with
  | none => exact ⟨_, rfl⟩
  | some lines => exact ⟨_, rfl⟩

theorem getProfileEnds_iff {profile : Profile} {pdp : ℤ} {behind : CStr}
    {answers : ℕ → AtAnswer} :
    GetProfileEnds profile pdp behind answers ↔
      ∃ k, ¬ Retries fun n => answers (2 * k + n) := by
  refine Dialogue.loop_ends_iff (by decide) (fun answers h => ?_) (fun answers h => ?_)
  · obtain ⟨herr, hnone, hcreated⟩ := h
    rw [Dialogue.after_succ_of_inl (s := .create)]
    · exact if_pos hcreated
    · rw [Dialogue.after_succ_of_inl rfl]
      exact if_pos ⟨herr, by rw [hnone]; rfl⟩
  · by_cases hquery : (answers 0).err = atErrorInvalidResponse ∧ (answers 0).pResponse.isNone
    · -- The modem has no answer to the question, so it is the command that was refused.
      have hrefused : ¬ (answers 1).lines.isSome := by
        intro hcreated
        exact h ⟨hquery.1, Option.isNone_iff_eq_none.1 hquery.2, hcreated⟩
      refine @ends_of_cgdcont _ _ _ answers 2 ?_
      rw [Dialogue.after_succ_of_inl (s := .create)]
      · exact if_neg hrefused
      · rw [Dialogue.after_succ_of_inl rfl]
        exact if_pos hquery
    · have hone : Dialogue.after
          (getProfileNext { profile with iptype := enabledIptype profile } pdp behind)
          (.inl .query) answers 1 = getProfileNext _ pdp behind .query (answers 0) :=
        Dialogue.after_succ_of_inl rfl
      rw [getProfileNext, if_neg hquery] at hone
      cases hlines : (answers 0).lines with
      | none =>
          rw [hlines] at hone
          exact ends_of_cgdcont hone
      | some lines =>
          rw [hlines] at hone
          cases lines with
          | nil => exact Dialogue.ends_iff.2 ⟨1, _, hone⟩
          | cons line more => exact Dialogue.ends_iff.2 ⟨1, _, hone⟩

end Atc

namespace QuectelCM

/-- The answer that `requestGetProfile` waits for. -/
inductive GetState where
  /-- to `QMIWDS_GET_PROFILE_SETTINGS_REQ` -/
  | query
  /-- to `QMIWDS_CREATE_PROFILE_REQ` -/
  | create
  deriving DecidableEq

/-- What `requestGetProfile` does with an answer: it waits for the next one, or returns its result
and the profile. -/
def getProfileNext (profile : Profile) : GetState → Answer → GetState ⊕ (ℤ × Profile)
  | .query, a =>
      if NoProfile a then .inl .create
      else
        match qmiRspCheck a with
        | .error err => .inr (err, profile)
        | .ok m => .inr (0, readOld profile m)
  | .create, a =>
      match qmiRspCheck a with
      | .error err => .inr (err, profile)
      | .ok _ => .inl .query

/-- The function asks only when there is a profile index. -/
def getProfileStart (profile : Profile) : GetState ⊕ (ℤ × Profile) :=
  if profile.pdp = 0 then .inr (0, forgetOld profile) else .inl .query

/-- `requestGetProfile` of `QMIThread.c` sends only finitely many requests. -/
def GetProfileEnds (profile : Profile) (answers : ℕ → Answer) : Prop :=
  Dialogue.Ends (getProfileNext (forgetOld profile)) (getProfileStart profile) answers

/-- The answers of the first rounds. -/
def rounds (answers : ℕ → Answer) (n : ℕ) : List (Answer × Answer) :=
  (List.range n).map fun k => (answers (2 * k), answers (2 * k + 1))

/-- In a round the modem has no such profile, and creates it. -/
def Retries (answers : ℕ → Answer) : Prop :=
  NoProfile (answers 0) ∧ ∃ m, qmiRspCheck (answers 1) = .ok m

/-- A round that goes on comes back to the question. -/
theorem after_two {profile : Profile} {answers : ℕ → Answer} (h : Retries answers) :
    Dialogue.after (getProfileNext profile) (.inl .query) answers 2 = .inl .query := by
  obtain ⟨hnone, m, hm⟩ := h
  rw [Dialogue.after_succ_of_inl (s := .create)]
  · rw [getProfileNext, hm]
  · rw [Dialogue.after_succ_of_inl rfl]
    exact if_pos hnone

/-- A round that does not go on ends with a result, the one of its round in `reCheck`. -/
theorem after_two_of_not {profile : Profile} {answers : ℕ → Answer} (h : ¬ Retries answers)
    (more : List (Answer × Answer)) :
    ∃ r, Dialogue.after (getProfileNext profile) (.inl .query) answers 2 = .inr r ∧
      reCheck profile ((answers 0, answers 1) :: more) = some r := by
  have hone : Dialogue.after (getProfileNext profile) (.inl .query) answers 1 =
      getProfileNext profile .query (answers 0) := Dialogue.after_succ_of_inl rfl
  rw [getProfileNext] at hone
  rw [reCheck]
  by_cases hnone : NoProfile (answers 0)
  · rw [if_pos hnone] at hone ⊢
    rw [Dialogue.after_succ_of_inl hone, getProfileNext]
    cases hcreate : qmiRspCheck (answers 1) with
    | error err => exact ⟨_, rfl, rfl⟩
    | ok m => exact absurd ⟨hnone, m, hcreate⟩ h
  · rw [if_neg hnone] at hone ⊢
    cases hget : qmiRspCheck (answers 0) with
    | error err =>
        rw [hget] at hone
        exact ⟨_, Dialogue.after_succ_of_inr hone, rfl⟩
    | ok m =>
        rw [hget] at hone
        exact ⟨_, Dialogue.after_succ_of_inr hone, rfl⟩

theorem rounds_succ (answers : ℕ → Answer) (n : ℕ) :
    rounds answers (n + 1) =
      (answers 0, answers 1) :: rounds (fun k => answers (2 + k)) n := by
  unfold rounds
  rw [List.range_succ_eq_map, List.map_cons, List.map_map]
  refine congrArg _ (List.map_congr_left fun k _ => ?_)
  show (answers (2 * (k + 1)), answers (2 * (k + 1) + 1)) = _
  rw [Nat.mul_succ, Nat.add_comm (2 * k) 2, Nat.add_assoc]

/-- The loop, answer by answer, is the one in rounds. -/
theorem after_reCheck (profile : Profile) (answers : ℕ → Answer) (n : ℕ) :
    (Dialogue.after (getProfileNext profile) (.inl .query) answers (2 * n)).getRight? =
      reCheck profile (rounds answers n) := by
  induction n generalizing answers with
  | zero => rfl
  | succ n ih =>
      rw [rounds_succ, Nat.mul_succ, Nat.add_comm, Dialogue.after_add]
      by_cases h : Retries answers
      · obtain ⟨hnone, m, hm⟩ := h
        rw [after_two ⟨hnone, m, hm⟩, ih, reCheck, if_pos hnone, hm]
      · obtain ⟨r, hafter, hround⟩ :=
          @after_two_of_not profile answers h (rounds (fun k => answers (2 + k)) n)
        rw [hround, hafter, Dialogue.after_of_inr rfl (Nat.zero_le _)]
        rfl

/-- **The function, answer by answer, is the one in rounds.** -/
theorem after_rounds (profile : Profile) (answers : ℕ → Answer) (n : ℕ) :
    (Dialogue.after (getProfileNext (forgetOld profile)) (getProfileStart profile) answers
      (2 * n)).getRight? = requestGetProfile profile (rounds answers n) := by
  rw [getProfileStart, requestGetProfile]
  by_cases hpdp : profile.pdp = 0
  · rw [if_pos hpdp, if_pos hpdp, Dialogue.after_of_inr rfl (Nat.zero_le _)]
    rfl
  · rw [if_neg hpdp, if_neg hpdp]
    exact after_reCheck _ answers n

theorem getProfileEnds_iff {profile : Profile} {answers : ℕ → Answer} :
    GetProfileEnds profile answers ↔
      profile.pdp = 0 ∨ ∃ k, ¬ Retries fun n => answers (2 * k + n) := by
  rw [GetProfileEnds, getProfileStart]
  by_cases hpdp : profile.pdp = 0
  · rw [if_pos hpdp]
    exact iff_of_true (Dialogue.ends_iff.2 ⟨0, _, rfl⟩) (.inl hpdp)
  · rw [if_neg hpdp, or_iff_right hpdp]
    refine Dialogue.loop_ends_iff (by decide) (fun answers h => after_two h)
      (fun answers h => ?_)
    obtain ⟨r, hr, -⟩ := @after_two_of_not (forgetOld profile) answers h []
    exact Dialogue.ends_iff.2 ⟨2, r, hr⟩

/-- **Asking for the profile ends exactly when in some round the modem answers otherwise**: when it
has the profile, gives another error, or does not create it. -/
theorem getProfile_ends_iff (profile : Profile) (answers : ℕ → Answer) (pdp : ℤ) (behind : CStr)
    (atAnswers : ℕ → Atc.AtAnswer) :
    (GetProfileEnds profile answers ∧ Atc.GetProfileEnds profile pdp behind atAnswers) ↔
      (profile.pdp = 0 ∨ ∃ k, ¬ Retries fun n => answers (2 * k + n)) ∧
        ∃ k, ¬ Atc.Retries fun n => atAnswers (2 * k + n) :=
  and_congr getProfileEnds_iff Atc.getProfileEnds_iff

/-- The modem has no such profile: the error is `QMI_ERR_EXTENDED_INTERNAL`. -/
def noProfileResp : List UInt8 :=
  [0x01, 19, 0, 0x80, 0x01, 1, 0x02, 1, 0, 0x2B, 0, 7, 0, 0x02, 4, 0, 1, 0, 0x51, 0]

/-- A modem that says of every profile that there is none, and creates all of them. -/
def forgetful (n : ℕ) : Answer :=
  if n % 2 = 0 then .response noProfileResp else .response successResp

/-- A modem with commands that are all done, but never answered by a line. -/
def silent (n : ℕ) : Atc.AtAnswer :=
  if n % 2 = 0 then ⟨Atc.atErrorInvalidResponse, none⟩ else Atc.oneLine []

/-- Such a modem is asked for ever. -/
theorem getProfile_endless : ¬ ∀ (profile : Profile) (answers : ℕ → Answer) (pdp : ℤ)
    (behind : CStr) (atAnswers : ℕ → Atc.AtAnswer),
    GetProfileEnds profile answers ∧ Atc.GetProfileEnds profile pdp behind atAnswers := by
  intro hall
  obtain ⟨hends, -⟩ := hall (.default true false) forgetful 0 .empty silent
  obtain hpdp | ⟨k, hk⟩ := getProfileEnds_iff.1 hends
  · cases hpdp
  · refine hk ⟨?_, successResp, ?_⟩
    · have heven : (2 * k + 0) % 2 = 0 := by omega
      show NoProfile (forgetful (2 * k + 0))
      rw [forgetful, if_pos heven]
      exact ⟨noProfileResp, rfl, by decide, by decide⟩
    · have hodd : ¬ (2 * k + 1) % 2 = 0 := by omega
      show qmiRspCheck (forgetful (2 * k + 1)) = .ok successResp
      rw [forgetful, if_neg hodd]
      rfl

/-- The commands of the other back-end are no better off. -/
theorem getProfileEnds_silent (profile : Profile) (pdp : ℤ) (behind : CStr) :
    ¬ Atc.GetProfileEnds profile pdp behind silent := by
  rw [Atc.getProfileEnds_iff]
  rintro ⟨k, hk⟩
  have heven : (2 * k + 0) % 2 = 0 := by omega
  have hodd : ¬ (2 * k + 1) % 2 = 0 := by omega
  refine hk ⟨?_, ?_, ?_⟩
  · show (silent (2 * k + 0)).err = _
    rw [silent, if_pos heven]
  · show (silent (2 * k + 0)).pResponse = none
    rw [silent, if_pos heven]
  · show (silent (2 * k + 1)).lines.isSome = true
    rw [silent, if_neg hodd]
    rfl

end QuectelCM

/-
**The profile that the modem has stored, asked for with AT commands.**

`requestGetProfile` of `atc.c` asks with `AT+QICSGP`; when the modem has no answer to that, it sets
an empty profile and asks again, and when the modem knows no such command, it asks with
`AT+CGDCONT?`.  `requestSetProfile` compares what was stored with what the user asks for.

* `Atc.getProfileNext` — `requestGetProfile`, answer by answer;
* `Atc.requestSetProfile` — the result and the commands that are sent;
* `Atc.QicsgpLine`, `Atc.Remembered` — an answer with five fields, and what should hold of it;
* `Atc.after_qicsgp` — **the fields are remembered, and still the function fails**;
* `Atc.not_remembered` — no answer with five fields is taken for one.
-/
import OpenwrtPackage.Atc.Address
import OpenwrtPackage.Atc.Fields
import OpenwrtPackage.Lib.Dialogue
import OpenwrtPackage.QuectelCM.ProfileUpdate
import OpenwrtPackage.QuectelCM.UserInput

set_option relaxedAutoImplicit false
set_option autoImplicit false

namespace Atc

open CScan QuectelCM

/-! ### Strings of a response -/

/-- The string of a field, as the bytes that it is. -/
def cstrOfWord (w : List Char) : CStr := cstrOf (w.map fun c => UInt8.ofNat c.toNat)

/-- `strncpy` into a field of 64 bytes.  A string that fills the field is not ended there, and goes
on with what stands behind it. -/
def strncpyOld (s behind : CStr) : CStr :=
  if s.1.length < oldSize then s
  else ⟨s.1.take oldSize ++ behind.1, fun h => by
    rcases List.mem_append.1 h with h | h
    · exact s.2 (List.mem_of_mem_take h)
    · exact behind.2 h⟩

/-- The profile of the modem is remembered: `old_apn`, `old_user` and `old_password` stand in a row,
with `behind` at the end. -/
def storeOld (profile : Profile) (behind : CStr) (iptype : ℤ) (apn user password : CStr)
    (auth : ℤ) : Profile :=
  let oldPassword := strncpyOld password behind
  let oldUser := strncpyOld user oldPassword
  let oldApn := strncpyOld apn oldUser
  { profile with
    oldApn := oldApn
    oldUser := oldUser
    oldPassword := oldPassword
    oldAuth := auth
    oldIptype := iptype }

/-! ### `requestGetProfile` -/

/-- `AT_ERROR_INVALID_RESPONSE` -/
def atErrorInvalidResponse : ℤ := -6

/-- `profile->iptype` by the families that are asked for. -/
def enabledIptype (profile : Profile) : ℤ :=
  if profile.enableIpv4 ∧ profile.enableIpv6 then 3
  else if profile.enableIpv6 then 2
  else 1

/-- The answer that the function waits for. -/
inductive GetState where
  /-- to `AT+QICSGP=<pdp>` -/
  | query
  /-- to `AT+QICSGP=<pdp>,<iptype>,"","","",0` -/
  | create
  /-- to `AT+CGDCONT?` -/
  | cgdcont
  deriving DecidableEq

/-- The line of `+QICSGP`; `pdp` is what the variable holds, which is never set before. -/
def readQicsgp (profile : Profile) (pdp : ℤ) (behind : CStr) (line : List Char) : ℤ × Profile :=
  let r := atTokScanf line [.d, .s, .s, .s, .d]
  let str := fun i => cstrOfWord ((strOut r i).getD [])
  (if r.1 ≠ 4 ∨ pdp ≠ profile.pdp then -1 else 0,
    storeOld profile behind (intOut r 0 1) (str 1) (str 2) (str 3) (intOut r 4 0))

/-- `cgdcont_iptype` as a number. -/
def cgdcontIptype (t : List Char) : ℤ :=
  if sameIgnoringCase t "IPV4V6".toList then 3
  else if sameIgnoringCase t "IPV6".toList then 2
  else 1

/-- The loop over the lines of `+CGDCONT`: the type and the name of the access point, or `none` when
there is a placeholder for the type, which is compared all the same. -/
def cgdcontLoop (profilePdp : ℤ) : ℤ → List (List Char) → Option (ℤ × List Char)
  | _, [] => some (1, [])
  | pdp, line :: lines =>
      let r := atTokScanf line [.d, .s, .s]
      let pdp := intOut r 0 pdp
      if r.1 = 3 ∧ pdp = profilePdp then
        (strOut r 1).map fun t => (cgdcontIptype t, (strOut r 2).getD [])
      else cgdcontLoop profilePdp pdp lines

/-- What `requestGetProfile` does with an answer: it waits for the next one, or returns its result
and the profile, `none` when it uses a pointer that is `NULL`. -/
def getProfileNext (profile : Profile) (pdp : ℤ) (behind : CStr) :
    GetState → AtAnswer → GetState ⊕ Option (ℤ × Profile)
  | .query, a =>
      if a.err = atErrorInvalidResponse ∧ a.pResponse.isNone then .inl .create
      else
        match a.lines with
        | some (line :: _) => .inr (some (readQicsgp profile pdp behind line))
        | some [] => .inr none
        | none => .inl .cgdcont
  | .create, a => if a.lines.isSome then .inl .query else .inl .cgdcont
  | .cgdcont, a =>
      match a.lines with
      | some lines =>
          .inr ((cgdcontLoop profile.pdp pdp lines).map fun r =>
            (0, storeOld profile behind r.1 (cstrOfWord r.2) .empty .empty 0))
      | none => .inr (some (-1, storeOld profile behind 1 .empty .empty .empty 0))

/-- `requestGetProfile`, where the modem gives these answers: after `n` of them. -/
def requestGetProfile (profile : Profile) (pdp : ℤ) (behind : CStr) (answers : ℕ → AtAnswer) :
    ℕ → GetState ⊕ Option (ℤ × Profile) :=
  Dialogue.after
    (getProfileNext { profile with iptype := enabledIptype profile } pdp behind) (.inl .query)
    answers

/-! ### `requestSetProfile` -/

/-- `%d` -/
def intText (n : ℤ) : List Char := if n < 0 then '-' :: dec n.natAbs else dec n.natAbs

/-- `ipStr` -/
def ipStr (n : ℤ) : List Char :=
  ["NULL".toList, "IPV4".toList, "IPV6".toList, "IPV4V6".toList].getD n.toNat []

/-- `AT+QICSGP=%d,%d,"%s","%s","%s",%d` -/
def qicsgpCommand (profile : Profile) : List Char :=
  "AT+QICSGP=".toList ++ intText profile.pdp ++ ',' :: intText profile.iptype ++
    ',' :: quoted (orEmpty profile.apn).word ++ ',' :: quoted (orEmpty profile.user).word ++
    ',' :: quoted (orEmpty profile.password).word ++ ',' :: intText profile.auth

/-- `AT+CGDCONT=%d,"%s","%s"` -/
def cgdcontCommand (profile : Profile) : List Char :=
  "AT+CGDCONT=".toList ++ intText profile.pdp ++ ',' :: quoted (ipStr profile.iptype) ++
    ',' :: quoted (orEmpty profile.apn).word

/-- `requestSetProfile`: the result and the commands, with the answer to the first of them. -/
def requestSetProfile (profile : Profile) (qicsgp : AtAnswer) : ℤ × List (List Char) :=
  if NoNeedToSet profile then (0, [])
  else if qicsgp.lines.isNone then (1, [qicsgpCommand profile, cgdcontCommand profile])
  else (1, [qicsgpCommand profile])

/-! ### An answer with five fields -/

/-- What the modem has stored. -/
structure Stored where
  iptype : ℤ
  apn : CStr
  user : CStr
  password : CStr
  auth : ℤ
  deriving DecidableEq

/-- The numbers are in the range of an `int`, and the strings are shorter than 64 characters. -/
structure Stored.Fits (s : Stored) : Prop where
  iptype : -2 ^ 31 ≤ s.iptype ∧ s.iptype < 2 ^ 31
  apn : s.apn.1.length < 64
  user : s.user.1.length < 64
  password : s.password.1.length < 64
  auth : -2 ^ 31 ≤ s.auth ∧ s.auth < 2 ^ 31

/-- An answer with these five fields. -/
def QicsgpLine (s : Stored) (line : List Char) : Prop :=
  ∃ items : List Item, items.map Item.field =
      [.int s.iptype, .str s.apn.word, .str s.user.word, .str s.password.word, .int s.auth] ∧
    line.length < sLineSize ∧ line = "+QICSGP".toList ++ ':' :: joined items

/-- The profile is remembered as it is stored. -/
structure Keeps (profile : Profile) (s : Stored) : Prop where
  iptype : profile.oldIptype = s.iptype
  apn : profile.oldApn = s.apn
  user : profile.oldUser = s.user
  password : profile.oldPassword = s.password
  auth : profile.oldAuth = s.auth

/-- The user asks for what is stored. -/
structure AsksFor (profile : Profile) (s : Stored) : Prop where
  iptype : profile.iptype = s.iptype
  apn : orEmpty profile.apn = s.apn
  user : orEmpty profile.user = s.user
  password : orEmpty profile.password = s.password
  auth : profile.auth = s.auth

/-- What should hold of an answer: `requestGetProfile` returns 0 and remembers what is stored, and
when the user asks for that, `requestSetProfile` returns 0 and sends nothing. -/
def Remembered (s : Stored) (result : GetState ⊕ Option (ℤ × Profile)) : Prop :=
  ∃ profile', result = .inr (some (0, profile')) ∧ Keeps profile' s ∧
    (AsksFor profile' s → ∀ a, requestSetProfile profile' a = (0, []))

/-! ### Reading the answer -/

/-- A string comes back as its bytes. -/
theorem cstrOfWord_word (s : CStr) : cstrOfWord s.word = s := by
  have hbytes : s.word.map (fun c => UInt8.ofNat c.toNat) = s.1 := by
    unfold CStr.word
    rw [List.map_map]
    refine (List.map_congr_left fun b _ => ?_).trans (List.map_id _)
    have hlt := b.toNat_lt
    show UInt8.ofNat (Char.ofNat b.toNat).toNat = b
    rw [Char.ofNat, dif_pos (Or.inl (by omega))]
    exact UInt8.ofNat_toNat
  rw [cstrOfWord, hbytes]
  refine Subtype.ext (List.takeWhile_eq_self_iff.2 fun b hb => ?_)
  exact decide_eq_true fun hzero => s.2 (hzero ▸ hb)

theorem strncpyOld_of_lt {s : CStr} (h : s.1.length < 64) (behind : CStr) :
    strncpyOld s behind = s :=
  if_pos h

section

variable {profile : Profile} {s : Stored} {line : List Char}

/-- All five fields are read. -/
theorem atTokScanf_qicsgp (h : QicsgpLine s line) :
    atTokScanf line [.d, .s, .s, .s, .d] =
      (5, [some (.int (intOf s.iptype)), some (.str s.apn.word), some (.str s.user.word),
        some (.str s.password.word), some (.int (intOf s.auth))]) := by
  obtain ⟨items, hfields, hlen, rfl⟩ := h
  have hscan := @atTokScanf_fields "+QICSGP".toList (by decide) items _ hfields
    (List.cons_ne_nil _ _) (by simp) [] ends_nil (by simpa using hlen)
  rw [List.append_nil] at hscan
  exact hscan

/-- What is made of an answer with five fields. -/
theorem readQicsgp_eq (h : QicsgpLine s line) (hs : s.Fits) (pdp : ℤ) (behind : CStr) :
    readQicsgp profile pdp behind line =
      (-1, { profile with
        oldApn := s.apn
        oldUser := s.user
        oldPassword := s.password
        oldAuth := s.auth
        oldIptype := s.iptype }) := by
  unfold readQicsgp
  rw [atTokScanf_qicsgp h]
  dsimp only
  rw [if_pos (Or.inl (by decide))]
  simp only [storeOld, strOut, intOut, List.getD_cons_zero, List.getD_cons_succ, Option.getD_some,
    cstrOfWord_word, strncpyOld_of_lt hs.apn, strncpyOld_of_lt hs.user,
    strncpyOld_of_lt hs.password, intOf_eq hs.iptype.1 hs.iptype.2, intOf_eq hs.auth.1 hs.auth.2]

section

variable {answers : ℕ → AtAnswer} {more : List (List Char)}

/-- The first answer is the one to `AT+QICSGP`. -/
theorem requestGetProfile_one (hanswer : (answers 0).lines = some (line :: more)) (pdp : ℤ)
    (behind : CStr) :
    requestGetProfile profile pdp behind answers 1 =
      .inr (some
        (readQicsgp { profile with iptype := enabledIptype profile } pdp behind line)) := by
  have hresponse : ¬ ((answers 0).err = atErrorInvalidResponse ∧
      (answers 0).pResponse.isNone = true) := by
    rintro ⟨-, hnone⟩
    rw [Option.isNone_iff_eq_none] at hnone
    rw [AtAnswer.lines, hnone] at hanswer
    cases hanswer
  rw [requestGetProfile, Dialogue.after_succ_of_inl rfl, getProfileNext, if_neg hresponse, hanswer]

/-- **An answer with five fields is remembered**, and when the user asks for what is stored,
nothing is sent; but the function does not return 0. -/
theorem after_qicsgp (h : QicsgpLine s line) (hs : s.Fits)
    (hanswer : (answers 0).lines = some (line :: more)) (pdp : ℤ) (behind : CStr) :
    ∃ profile', requestGetProfile profile pdp behind answers 1 = .inr (some (-1, profile')) ∧
      Keeps profile' s ∧
        (AsksFor profile' s → ∀ a, requestSetProfile profile' a = (0, [])) := by
  rw [requestGetProfile_one hanswer, readQicsgp_eq h hs]
  refine ⟨_, rfl, ⟨rfl, rfl, rfl, rfl, rfl⟩, ?_⟩
  rintro ⟨hiptype, hapn, huser, hpassword, hauth⟩ a
  exact if_pos ⟨hapn.symm, huser.symm, hpassword.symm, hiptype.symm, hauth.symm⟩

/-- Whatever the modem answers later, the result is -1. -/
theorem result_of_qicsgp (h : QicsgpLine s line)
    (hanswer : (answers 0).lines = some (line :: more)) {pdp : ℤ} {behind : CStr} {n : ℕ}
    {result : ℤ × Profile}
    (hresult : requestGetProfile profile pdp behind answers n = .inr (some result)) :
    result.1 = -1 := by
  have hcount : (5 : ℕ) ≠ 4 := by decide
  have hone := @requestGetProfile_one profile line answers more hanswer pdp behind
  cases n with
  | zero => cases hresult
  | succ n =>
      have hlater := Dialogue.after_of_inr hone (Nat.succ_le_succ (Nat.zero_le n))
      rw [requestGetProfile, hlater] at hresult
      rw [← Option.some.inj (Sum.inr.inj hresult)]
      unfold readQicsgp
      rw [atTokScanf_qicsgp h]
      dsimp only
      rw [if_pos (Or.inl hcount)]

/-- **No answer with five fields is taken for one**: the function wants four. -/
theorem not_remembered (h : QicsgpLine s line)
    (hanswer : (answers 0).lines = some (line :: more)) (pdp : ℤ) (behind : CStr) (n : ℕ) :
    ¬ Remembered s (requestGetProfile profile pdp behind answers n) := by
  rintro ⟨profile', hresult, -⟩
  have hcode := result_of_qicsgp h hanswer hresult
  cases hcode

end

end

/-! ### The default profile -/

/-- `+QICSGP: 1,"internet","","",0` -/
def internetStored : Stored where
  iptype := 1
  apn := cstrOfWord ['i', 'n', 't', 'e', 'r', 'n', 'e', 't']
  user := .empty
  password := .empty
  auth := 0

/-- A string in quotes. -/
def strItem (blank : Bool) (s : List Char) (h : '"' ∉ s) : Item :=
  ⟨blank, .str s, quoted s, .s, ⟨h, rfl⟩, rfl⟩

def internetItems : List Item :=
  [natItem true 1, strItem false internetStored.apn.word (by decide), strItem false [] (by decide),
    strItem false [] (by decide), natItem false 0]

def internetLine : List Char := "+QICSGP".toList ++ ':' :: joined internetItems

theorem internetLine_qicsgp : QicsgpLine internetStored internetLine :=
  ⟨internetItems, rfl, by decide +kernel, rfl⟩

theorem not_remembered_internet : ¬ Remembered internetStored
    (requestGetProfile (.default true false) 1 .empty (fun _ => oneLine internetLine) 1) :=
  @not_remembered (.default true false) internetStored internetLine
    (fun _ => oneLine internetLine) [] internetLine_qicsgp rfl 1 .empty 1

/-- The function fails although the modem has stored what the user asks for. -/
theorem requestGetProfile_internet : ¬ ∀ (profile : Profile) (s : Stored) (line : List Char)
    (answers : ℕ → AtAnswer) (pdp : ℤ) (behind : CStr), QicsgpLine s line → s.Fits →
      (answers 0).lines = some [line] →
        ∃ n, Remembered s (requestGetProfile profile pdp behind answers n) := by
  intro hall
  obtain ⟨n, profile', hresult, -⟩ := hall (.default true false) internetStored internetLine
    (fun _ => oneLine internetLine) 1 .empty internetLine_qicsgp
    ⟨by decide, by decide, by decide, by decide, by decide⟩ rfl
  have hcode := result_of_qicsgp internetLine_qicsgp rfl hresult
  cases hcode

end Atc

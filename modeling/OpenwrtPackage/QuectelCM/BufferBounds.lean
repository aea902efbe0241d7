/-
**Requests and their buffer.**

`ComposeQMUXMsg` has 256 bytes on its stack for a request, and neither the functions that write the
TLVs nor the command line ask for the length of a string.  A string is copied with its NUL, so the
last one can leave the buffer although its TLV does not.

Main definitions:

* `QuectelCM.InBuffer` — nothing behind the buffer is written, and nothing behind it is read;
* `QuectelCM.Piece`, `QuectelCM.appendPiece` — a TLV, and what is written behind it;
* `QuectelCM.Ends` — every piece of a list ends in front of a limit;
* `QuectelCM.uimVerifyPinReqSend` — `UimVerifyPinReqSend`;
* `QuectelCM.FromUser` — a profile with what the command line says.

Main results:

* `QuectelCM.below_places_iff` — where the pieces lie, although `TLVLength` can run over;
* `QuectelCM.inBuffer_start`, `QuectelCM.inBuffer_modify`, `QuectelCM.inBuffer_verifyPin`;
* `QuectelCM.requestsFit_iff` — **which command lines have requests that fit the buffer**.
-/
import OpenwrtPackage.QuectelCM.Compose
import OpenwrtPackage.QuectelCM.UserInput

set_option relaxedAutoImplicit false
set_option autoImplicit false

namespace QuectelCM

open Qmi Bytes Memory Tlv

/-! ### The buffer -/

/-- A function for the TLVs of a request leaves the memory behind the buffer, whatever it is, and
the message that is copied out ends in the buffer. -/
structure InBuffer (custom : (ℕ → UInt8) → Tlvs) : Prop where
  frame : ∀ mem i, wdmDefaultBufsize ≤ i → (custom mem).1 i = mem i
  length : ∀ qmiType type transactionId stack,
    (composeQMUXMsg qmiType type (some custom) transactionId stack).length ≤ wdmDefaultBufsize

/-- The length of a message with this size. -/
theorem length_composeQMUXMsg {custom : (ℕ → UInt8) → Tlvs} {n : ℕ}
    (hsize : ∀ mem, (custom mem).2 = qcqmuxMsgHdrSize + n)
    (hn : firstTLV + n ≤ wdmDefaultBufsize) (qmiType : UInt8) (type transactionId : ℕ)
    (stack : ℕ → UInt8) :
    (composeQMUXMsg qmiType type (some custom) transactionId stack).length = firstTLV + n := by
  simp only [firstTLV, qcqmiHdrSize, qcqmuxHdrSize, qcqmuxMsgHdrSize, wdmDefaultBufsize] at *
  unfold composeQMUXMsg
  dsimp only
  rw [length_load, hsize, le16In_store, le16In_store]
  simp only [qcqmiHdrSize, qcqmuxHdrSize, qcqmuxMsgHdrSize]
  omega

/-- Whether it stays in the buffer can be seen from what it writes. -/
theorem inBuffer_iff {custom : (ℕ → UInt8) → Tlvs} {ws : List (ℕ × List UInt8)} {n : ℕ}
    (hws : ∀ mem, (custom mem).1 = stores mem ws)
    (hsize : (∀ w ∈ ws, Below wdmDefaultBufsize w) → firstTLV + n ≤ wdmDefaultBufsize ∧
      ∀ mem, (custom mem).2 = qcqmuxMsgHdrSize + n) :
    InBuffer custom ↔ ∀ w ∈ ws, Below wdmDefaultBufsize w := by
  have hframe : (∀ mem i, wdmDefaultBufsize ≤ i → (custom mem).1 i = mem i) ↔
      ∀ w ∈ ws, Below wdmDefaultBufsize w := by
    have htwo : Nontrivial UInt8 := ⟨0, 1, by decide⟩
    rw [← stores_frame_iff]
    simp only [hws]
  constructor
  · intro h
    exact hframe.1 h.frame
  · intro h
    obtain ⟨hn, hsize⟩ := hsize h
    refine ⟨hframe.2 h, fun qmiType type transactionId stack => ?_⟩
    rw [length_composeQMUXMsg hsize hn]
    exact hn

/-! ### TLV by TLV -/

/-- A TLV, and what is written behind it: the NUL of a string. -/
abbrev Piece := Field × List UInt8

/-- A piece is written at `pTLV + TLVLength`. -/
def appendPiece (pTLV : ℕ) (t : Tlvs) (x : Piece) : Tlvs :=
  (store t.1 (pTLV + t.2) (encode x.1 ++ x.2),
    (t.2 + (x.1.value.length % 65536 + qmiTlvHdrSize)) % 65536)

/-- Where the pieces are written, when `TLVLength` is `n` at first. -/
def places (pTLV : ℕ) : ℕ → List Piece → List (ℕ × List UInt8)
  | _, [] => []
  | n, x :: xs =>
      (pTLV + n, encode x.1 ++ x.2) ::
        places pTLV ((n + (x.1.value.length % 65536 + qmiTlvHdrSize)) % 65536) xs

/-- Every piece ends in front of `limit`, when the first one is at `p`. -/
def Ends (limit : ℕ) : ℕ → List Piece → Prop
  | _, [] => True
  | p, x :: xs => p + x.1.size + x.2.length ≤ limit ∧ Ends limit (p + x.1.size) xs

theorem foldl_appendPiece (pTLV : ℕ) (xs : List Piece) (t : Tlvs) :
    (xs.foldl (appendPiece pTLV) t).1 = stores t.1 (places pTLV t.2 xs) := by
  induction xs generalizing t with
  | nil => rfl
  | cons x xs ih => rw [List.foldl_cons, ih, places, stores_cons, appendPiece]

/-- As long as nothing has left the buffer, `TLVLength` has not run over. -/
theorem below_places_iff {limit pTLV : ℕ} (hlimit : limit < 65536) (n : ℕ) (xs : List Piece) :
    (∀ w ∈ places pTLV n xs, Below limit w) ↔ Ends limit (pTLV + n) xs := by
  induction xs generalizing n with
  | nil => simp [places, Ends]
  | cons x xs ih =>
      have hlen : (encode x.1 ++ x.2).length = x.1.size + x.2.length := by
        rw [List.length_append, encode_length]
      have hne : encode x.1 ++ x.2 ≠ [] := List.cons_ne_nil _ _
      have hsize : x.1.size = x.1.value.length + qmiTlvHdrSize := Nat.add_comm ..
      rw [places, Ends, List.forall_mem_cons, Below, hlen, or_iff_right hne, ← Nat.add_assoc]
      refine and_congr_right fun hend => ?_
      have hvalue : x.1.value.length % 65536 = x.1.value.length := Nat.mod_eq_of_lt (by omega)
      have hplace : (n + (x.1.value.length + qmiTlvHdrSize)) % 65536 =
          n + (x.1.value.length + qmiTlvHdrSize) := Nat.mod_eq_of_lt (by omega)
      rw [hvalue, hplace, ih, hsize, Nat.add_assoc]

/-- The TLVs of pieces that end in front of `limit` do so together. -/
theorem Ends.length_le {limit p : ℕ} {xs : List Piece} (h : Ends limit p xs) (hp : p ≤ limit) :
    p + (encodeAll (xs.map Prod.fst)).length ≤ limit := by
  induction xs generalizing p with
  | nil => exact hp
  | cons x xs ih =>
      have hrest := ih h.2 (by have := h.1; omega)
      rw [List.map_cons, encodeAll_cons, List.length_append, encode_length]
      omega

/-! ### The pieces of a request -/

/-- A piece with a string, when there is one. -/
def stringPiece (type : UInt8) (s : Option CStr) : List Piece :=
  match s with
  | some s => [(⟨type, s.1⟩, [0])]
  | none => []

theorem appendByte_eq (pTLV : ℕ) (type value : UInt8) (t : Tlvs) :
    appendByte pTLV type value t = [(⟨type, [value]⟩, [])].foldl (appendPiece pTLV) t := rfl

theorem appendOption_eq (pTLV : ℕ) (type : UInt8) (s : Option CStr) (t : Tlvs) :
    appendOption pTLV type s t = (stringPiece type s).foldl (appendPiece pTLV) t := by
  cases s <;> rfl

/-- Pieces that are written only sometimes. -/
theorem foldl_ite {p : Prop} [Decidable p] (pTLV : ℕ) (xs : List Piece) (t : Tlvs) :
    (if p then xs.foldl (appendPiece pTLV) t else t) =
      (if p then xs else []).foldl (appendPiece pTLV) t := by
  split <;> rfl

/-- The pieces of `WdsStartNwInterfaceReq`, -/
def startPieces (sIsCdma : ℤ) (profile : Profile) : List Piece :=
  let user := profileUser sIsCdma profile
  let password := profilePassword sIsCdma profile
  [(⟨0x30, [if sIsCdma = 0 then 0x01 else 0x02]⟩, [])] ++
    (if sIsCdma = 0 then stringPiece 0x14 profile.apn else []) ++
    stringPiece 0x17 user ++ stringPiece 0x18 password ++
    (if user ≠ none ∧ password ≠ none then
      [(⟨0x16, [uchar (profileAuth sIsCdma profile)]⟩, [])] else []) ++
    [(⟨0x19, [uchar profile.curIpFamily]⟩, [])] ++
    if profile.pdp ≠ 0 ∧ sIsCdma = 0 then [(⟨0x31, [uchar profile.pdp]⟩, [])] else []

/-- and of `WdsModifyProfileSettingsReq`. -/
def modifyPieces (profile : Profile) : List Piece :=
  [(⟨0x11, [uchar profile.iptype]⟩, [])] ++ stringPiece 0x14 profile.apn ++
    stringPiece 0x1B profile.user ++ stringPiece 0x1C profile.password ++
    if profile.user ≠ none ∧ profile.password ≠ none then
      [(⟨0x1D, [uchar profile.auth]⟩, [])] else []

theorem map_stringPiece (type : UInt8) (s : Option CStr) :
    (stringPiece type s).map Prod.fst = stringField type s := by
  cases s <;> rfl

theorem map_ite {p : Prop} [Decidable p] (xs : List Piece) :
    (if p then xs else []).map Prod.fst = if p then xs.map Prod.fst else [] := by
  split <;> rfl

theorem map_startPieces (sIsCdma : ℤ) (profile : Profile) :
    (startPieces sIsCdma profile).map Prod.fst = startFields sIsCdma profile := by
  simp only [startPieces, startFields, List.map_append, map_ite, map_stringPiece, List.map_cons,
    List.map_nil]

theorem map_modifyPieces (profile : Profile) :
    (modifyPieces profile).map Prod.fst = settingFields profile := by
  simp only [modifyPieces, settingFields, List.map_append, map_ite, map_stringPiece, List.map_cons,
    List.map_nil]

theorem wdsStartNwInterfaceReq_eq (sIsCdma sHdrPersonality : ℤ) (profile : Profile)
    (mem : ℕ → UInt8) :
    (wdsStartNwInterfaceReq sIsCdma sHdrPersonality profile mem).1 =
      stores mem ((11, le16 0) :: places firstTLV 0 (startPieces sIsCdma profile)) := by
  have hgsm : ¬ (sIsCdma ≠ 0 ∧ sHdrPersonality = 0x02) ∨ ¬ (profile.pdp ≠ 0 ∧ sIsCdma = 0) := by
    omega
  rw [stores_cons, ← foldl_appendPiece firstTLV _ (_, 0)]
  simp only [startPieces, List.foldl_append, ← foldl_ite, ← appendOption_eq, ← appendByte_eq]
  unfold wdsStartNwInterfaceReq
  rcases hgsm with hgsm | hpdp
  · simp only [if_neg hgsm]
  · simp only [if_neg hpdp]

theorem wdsModifyProfileSettingsReq_eq (profile : Profile) (mem : ℕ → UInt8) :
    (wdsModifyProfileSettingsReq profile mem).1 =
      stores mem ((11, le16 (modifyReqSize - 4)) ::
        (13, 0x01 :: le16 2 ++ [0x00, uchar profile.pdp]) ::
          places (firstTLV + 5) 0 (modifyPieces profile)) := by
  rw [stores_cons, stores_cons, ← foldl_appendPiece (firstTLV + 5) _ (_, 0)]
  simp only [modifyPieces, List.foldl_append, ← foldl_ite, ← appendOption_eq, ← appendByte_eq]
  rfl

theorem inBuffer_start (sIsCdma sHdrPersonality : ℤ) (profile : Profile) :
    InBuffer (wdsStartNwInterfaceReq sIsCdma sHdrPersonality profile) ↔
      Ends wdmDefaultBufsize firstTLV (startPieces sIsCdma profile) := by
  have hplaces := @below_places_iff wdmDefaultBufsize firstTLV (by decide) 0
    (startPieces sIsCdma profile)
  rw [inBuffer_iff (wdsStartNwInterfaceReq_eq sIsCdma sHdrPersonality profile),
    List.forall_mem_cons, hplaces]
  · exact and_iff_right (Or.inr (by decide))
  · intro hbelow
    have hends := hplaces.1 fun w hw => hbelow w (List.mem_cons_of_mem _ hw)
    have hfits : FitsBuffer (startFields sIsCdma profile) := by
      rw [FitsBuffer, ← map_startPieces]
      exact hends.length_le (by decide)
    exact ⟨hfits, (writes_start sIsCdma sHdrPersonality hfits).size⟩

theorem inBuffer_modify (profile : Profile) :
    InBuffer (wdsModifyProfileSettingsReq profile) ↔
      Ends wdmDefaultBufsize (firstTLV + 5) (modifyPieces profile) := by
  have hplaces := @below_places_iff wdmDefaultBufsize (firstTLV + 5) (by decide) 0
    (modifyPieces profile)
  rw [inBuffer_iff (wdsModifyProfileSettingsReq_eq profile), List.forall_mem_cons,
    List.forall_mem_cons, hplaces]
  · exact (and_iff_right (Or.inr (by decide))).trans
      (and_iff_right (Or.inr (by simp [wdmDefaultBufsize])))
  · intro hbelow
    have hends := hplaces.1 fun w hw =>
      hbelow w (List.mem_cons_of_mem _ (List.mem_cons_of_mem _ hw))
    have hfits : FitsBuffer (modifyFields profile) := by
      have hlen := hends.length_le (by decide)
      rw [map_modifyPieces] at hlen
      rw [FitsBuffer, modifyFields, encodeAll_cons, List.length_append, encode_length]
      exact (Nat.add_assoc ..).symm.trans_le hlen
    exact ⟨hfits, (writes_modify hfits).size⟩

/-! ### The PIN -/

/-- `sizeof(QMIUIM_VERIFY_PIN_REQ_MSG)`, with one byte for the PIN -/
def verifyPinReqSize : ℕ := 15

/-- `UimVerifyPinReqSend`: the session, and the PIN, which is copied with its NUL. -/
def uimVerifyPinReqSend (arg : CStr) (mem : ℕ → UInt8) : Tlvs :=
  let mem := store mem 13 (0x01 :: le16 0x02 ++ [0x00, 0x00])
  let mem := store mem 18 (0x02 :: le16 (2 + arg.1.length) ++ [0x01, uchar arg.1.length])
  (store mem 23 (arg.1 ++ [0]), (verifyPinReqSize + arg.1.length - 1) % 65536)

theorem inBuffer_verifyPin (arg : CStr) :
    InBuffer (uimVerifyPinReqSend arg) ↔ arg.1.length + 24 ≤ wdmDefaultBufsize := by
  have hws : ∀ mem, (uimVerifyPinReqSend arg mem).1 = stores mem
      [(13, 0x01 :: le16 0x02 ++ [0x00, 0x00]),
        (18, 0x02 :: le16 (2 + arg.1.length) ++ [0x01, uchar arg.1.length]),
        (23, arg.1 ++ [0])] := fun mem => rfl
  have hpin : (∀ w ∈ [(13, 0x01 :: le16 0x02 ++ [0x00, 0x00]),
        (18, 0x02 :: le16 (2 + arg.1.length) ++ [0x01, uchar arg.1.length]),
        (23, arg.1 ++ [0])], Below wdmDefaultBufsize w) ↔
      arg.1.length + 24 ≤ wdmDefaultBufsize := by
    simp [Below, wdmDefaultBufsize]
    omega
  rw [inBuffer_iff (n := arg.1.length + 10) hws, hpin]
  rw [hpin]
  intro hlen
  have hsize : verifyPinReqSize + arg.1.length - 1 = qcqmuxMsgHdrSize + (arg.1.length + 10) := by
    simp only [verifyPinReqSize, qcqmuxMsgHdrSize]
    omega
  rw [wdmDefaultBufsize] at hlen ⊢
  refine ⟨by simp only [firstTLV, qcqmiHdrSize, qcqmuxHdrSize, qcqmuxMsgHdrSize]; omega,
    fun mem => ?_⟩
  rw [uimVerifyPinReqSend, hsize]
  exact Nat.mod_eq_of_lt (by simp only [qcqmuxMsgHdrSize]; omega)

/-! ### The command line -/

/-- The profile says what the user has said on the command line; the other fields are as the program
sets them. -/
structure FromUser (profile : Profile) (p : UserInput) : Prop where
  apn : profile.apn.map CStr.word = p.apn
  user : profile.user.map CStr.word = p.user
  password : profile.password.map CStr.word = p.password
  auth : profile.auth = p.auth
  pdp : profile.pdp = p.pdp

/-- The strings fit a request for a data call: with CDMA there is no APN and no profile index. -/
def StartFits (sIsCdma : ℤ) (profile : Profile) : Prop :=
  if sIsCdma = 0 then
    strlen profile.apn + strlen profile.user + strlen profile.password +
      (if profile.pdp = 0 then 34 else 38) ≤ wdmDefaultBufsize
  else strlen profile.user + strlen profile.password + 31 ≤ wdmDefaultBufsize

/-- They fit a request that changes the profile of the modem. -/
def ModifyFits (profile : Profile) : Prop :=
  strlen profile.apn + strlen profile.user + strlen profile.password + 35 ≤ wdmDefaultBufsize

instance (sIsCdma : ℤ) (profile : Profile) : Decidable (StartFits sIsCdma profile) :=
  inferInstanceAs (Decidable (if sIsCdma = 0 then
    strlen profile.apn + strlen profile.user + strlen profile.password +
      (if profile.pdp = 0 then 34 else 38) ≤ wdmDefaultBufsize
  else strlen profile.user + strlen profile.password + 31 ≤ wdmDefaultBufsize))

instance (profile : Profile) : Decidable (ModifyFits profile) :=
  inferInstanceAs (Decidable (_ ≤ _))

/-- The strings are there together. -/
theorem FromUser.together {profile : Profile} {p : UserInput} (h : FromUser profile p)
    (hp : p.Together) :
    (profile.apn = none ∧ profile.user = none ∧ profile.password = none) ∨
      ∃ apn user password, profile.apn = some apn ∧ profile.user = some user ∧
        profile.password = some password := by
  have huser := hp.user
  have hpassword := hp.password
  rw [← h.apn, ← h.user, Option.isSome_map, Option.isSome_map] at huser
  rw [← h.apn, ← h.password, Option.isSome_map, Option.isSome_map] at hpassword
  cases happn : profile.apn with
  | none =>
      rw [happn] at huser hpassword
      exact Or.inl ⟨rfl, Option.isSome_eq_false_iff.1 huser |> Option.isNone_iff_eq_none.1,
        Option.isSome_eq_false_iff.1 hpassword |> Option.isNone_iff_eq_none.1⟩
  | some apn =>
      rw [happn] at huser hpassword
      obtain ⟨user, huser⟩ := Option.isSome_iff_exists.1 huser
      obtain ⟨password, hpassword⟩ := Option.isSome_iff_exists.1 hpassword
      exact Or.inr ⟨apn, user, password, rfl, huser, hpassword⟩

/-- Behind each TLV at most a NUL is written. -/
def Nuls (xs : List Piece) : Prop := ∀ x ∈ xs, x.2.length ≤ 1

theorem nuls_append {xs ys : List Piece} : Nuls (xs ++ ys) ↔ Nuls xs ∧ Nuls ys :=
  List.forall_mem_append

theorem nuls_ite {p : Prop} [Decidable p] {xs : List Piece} (h : Nuls xs) :
    Nuls (if p then xs else []) := by
  split
  · exact h
  · exact fun x hx => absurd hx List.not_mem_nil

theorem nuls_byte (f : Field) : Nuls [(f, [])] := by
  intro x hx
  rw [List.mem_singleton.1 hx]
  exact Nat.zero_le 1

theorem nuls_stringPiece (type : UInt8) (s : Option CStr) : Nuls (stringPiece type s) := by
  cases s with
  | none => exact fun x hx => absurd hx List.not_mem_nil
  | some s =>
      intro x hx
      rw [List.mem_singleton.1 hx]
      exact Nat.le_refl 1

/-- A NUL is covered by the TLV behind it. -/
theorem ends_concat_iff {limit p : ℕ} {xs : List Piece} (h : Nuls xs) (f : Field) :
    Ends limit p (xs ++ [(f, [])]) ↔
      p + (encodeAll ((xs ++ [(f, [])]).map Prod.fst)).length ≤ limit := by
  have hsize : 3 ≤ f.size := Nat.le_add_right ..
  induction xs generalizing p with
  | nil => simp [Ends]
  | cons x xs ih =>
      have hnul := h x (List.mem_cons_self ..)
      have hlen : (encodeAll ((xs ++ [(f, [])]).map Prod.fst)).length =
          (encodeAll (xs.map Prod.fst)).length + f.size := by simp
      have hrest : Ends limit p (x :: (xs ++ [(f, [])])) ↔ p + x.1.size + x.2.length ≤ limit ∧
          p + x.1.size + (encodeAll ((xs ++ [(f, [])]).map Prod.fst)).length ≤ limit :=
        and_congr_right fun _ => ih fun y hy => h y (List.mem_cons_of_mem _ hy)
      rw [List.cons_append, hrest, List.map_cons, encodeAll_cons, List.length_append,
        encode_length, hlen]
      omega

/-- The last TLV of a request for a data call has no string. -/
theorem ends_start_iff (sIsCdma : ℤ) (profile : Profile) :
    Ends wdmDefaultBufsize firstTLV (startPieces sIsCdma profile) ↔
      FitsBuffer (startFields sIsCdma profile) := by
  rw [FitsBuffer, ← map_startPieces, startPieces]
  have hfront := nuls_append.2 ⟨nuls_append.2 ⟨nuls_append.2 ⟨nuls_append.2
    ⟨nuls_byte ⟨0x30, [if sIsCdma = 0 then 0x01 else 0x02]⟩,
      @nuls_ite (sIsCdma = 0) _ _ (nuls_stringPiece 0x14 profile.apn)⟩,
      nuls_stringPiece 0x17 (profileUser sIsCdma profile)⟩,
      nuls_stringPiece 0x18 (profilePassword sIsCdma profile)⟩,
      @nuls_ite (profileUser sIsCdma profile ≠ none ∧ profilePassword sIsCdma profile ≠ none) _ _
        (nuls_byte ⟨0x16, [uchar (profileAuth sIsCdma profile)]⟩)⟩
  by_cases hpdp : profile.pdp ≠ 0 ∧ sIsCdma = 0
  · rw [if_pos hpdp]
    exact ends_concat_iff (nuls_append.2 ⟨hfront, nuls_byte _⟩) _
  · rw [if_neg hpdp, List.append_nil]
    exact ends_concat_iff hfront _

/-- Nor has the one of a request that changes the profile, when it says how to authenticate. -/
theorem ends_modify_iff {profile : Profile} (huser : profile.user ≠ none)
    (hpassword : profile.password ≠ none) :
    Ends wdmDefaultBufsize (firstTLV + 5) (modifyPieces profile) ↔
      FitsBuffer (modifyFields profile) := by
  have hauth := And.intro huser hpassword
  have hsize : firstTLV + (encodeAll (modifyFields profile)).length =
      firstTLV + 5 + (encodeAll (settingFields profile)).length := by
    rw [modifyFields, encodeAll_cons, List.length_append, encode_length]
    exact (Nat.add_assoc ..).symm
  rw [FitsBuffer, hsize, ← map_modifyPieces, modifyPieces, if_pos hauth]
  exact ends_concat_iff (nuls_append.2 ⟨nuls_append.2 ⟨nuls_append.2 ⟨nuls_byte _,
    nuls_stringPiece _ _⟩, nuls_stringPiece _ _⟩, nuls_stringPiece _ _⟩) _

/-! ### The sizes -/

/-- The size of the TLV with a string, when there is one. -/
def stringSize (s : Option CStr) : ℕ :=
  match s with
  | some s => 3 + s.1.length
  | none => 0

theorem length_stringField (type : UInt8) (s : Option CStr) :
    (encodeAll (stringField type s)).length = stringSize s := by
  cases s <;> simp [stringField, stringSize, Field.size, headerSize]

theorem length_ite {p : Prop} [Decidable p] (fs : List Field) :
    (encodeAll (if p then fs else [])).length = if p then (encodeAll fs).length else 0 := by
  split <;> rfl

theorem length_startFields (sIsCdma : ℤ) (profile : Profile) :
    (encodeAll (startFields sIsCdma profile)).length =
      4 + (if sIsCdma = 0 then stringSize profile.apn else 0) +
        stringSize (profileUser sIsCdma profile) + stringSize (profilePassword sIsCdma profile) +
        (if profileUser sIsCdma profile ≠ none ∧ profilePassword sIsCdma profile ≠ none then 4
          else 0) + 4 + if profile.pdp ≠ 0 ∧ sIsCdma = 0 then 4 else 0 := by
  simp only [startFields, encodeAll_append, List.length_append, length_ite, length_stringField]
  rfl

theorem length_modifyFields (profile : Profile) :
    (encodeAll (modifyFields profile)).length =
      5 + (4 + stringSize profile.apn + stringSize profile.user + stringSize profile.password +
        if profile.user ≠ none ∧ profile.password ≠ none then 4 else 0) := by
  simp only [modifyFields, settingFields, encodeAll_cons, encodeAll_append, List.length_append,
    length_ite, length_stringField]
  rfl

theorem strlen_blank {s : Option CStr} (h : blank s) : strlen s = 0 := by
  cases s with
  | none => rfl
  | some s => exact List.length_eq_zero_iff.2 (h s rfl)

theorem firstTLV_eq : firstTLV = 13 := rfl

/-- The strings of a command line fit when their lengths do. -/
theorem startFits_iff {profile : Profile} {p : UserInput} (hprofile : FromUser profile p)
    (hp : p.Together) (sIsCdma : ℤ) :
    FitsBuffer (startFields sIsCdma profile) ↔ StartFits sIsCdma profile := by
  rw [FitsBuffer, length_startFields, StartFits, firstTLV_eq]
  by_cases hdefault : DefaultCredentials sIsCdma profile
  · -- the default credentials are short
    have hcdma := hdefault.1
    have hpdp : ¬ (profile.pdp ≠ 0 ∧ sIsCdma = 0) := fun h => hcdma h.2
    rw [profileUser, profilePassword, if_pos hdefault, if_pos hdefault, if_neg hcdma, if_neg hpdp,
      if_neg hcdma, strlen_blank hdefault.2.1, strlen_blank hdefault.2.2]
    exact iff_of_true (by decide) (by decide)
  · rw [profileUser, profilePassword, if_neg hdefault, if_neg hdefault]
    rcases hprofile.together hp with ⟨happn, huser, hpassword⟩ |
      ⟨apn, user, password, happn, huser, hpassword⟩
    · -- without credentials it is not CDMA
      have hgsm : sIsCdma = 0 := by
        by_contra hcdma
        refine hdefault ⟨hcdma, ?_, ?_⟩
        · rw [huser]
          exact fun t ht => absurd ht (by simp)
        · rw [hpassword]
          exact fun t ht => absurd ht (by simp)
      simp only [happn, huser, hpassword, hgsm, stringSize, strlen, chars, List.length_nil,
        wdmDefaultBufsize]
      by_cases hpdp : profile.pdp = 0 <;> simp [hpdp]
    · simp only [happn, huser, hpassword, stringSize, strlen, chars, wdmDefaultBufsize, ne_eq,
        Option.some_ne_none, not_false_eq_true, and_self, if_true]
      by_cases hcdma : sIsCdma = 0 <;> by_cases hpdp : profile.pdp = 0
      · simp only [hcdma, hpdp, if_true, not_true_eq_false, false_and, if_false]
        omega
      · simp only [hcdma, hpdp, if_true, not_false_eq_true, and_self, if_false]
        omega
      · simp only [hcdma, and_false, if_false]
        omega
      · simp only [hcdma, and_false, if_false]
        omega

theorem modifyFits_iff {profile : Profile} {p : UserInput} (hprofile : FromUser profile p)
    (hp : p.Together) :
    Ends wdmDefaultBufsize (firstTLV + 5) (modifyPieces profile) ↔ ModifyFits profile := by
  rw [ModifyFits]
  rcases hprofile.together hp with ⟨happn, huser, hpassword⟩ |
    ⟨apn, user, password, happn, huser, hpassword⟩
  · rw [modifyPieces, happn, huser, hpassword]
    exact iff_of_true ⟨(by decide : 18 + 4 + 0 ≤ 256), trivial⟩ (by decide)
  · have hsome : ∀ {s : Option CStr} {t : CStr}, s = some t → s ≠ none := by
      rintro s t rfl
      exact Option.some_ne_none t
    rw [ends_modify_iff (hsome huser) (hsome hpassword), FitsBuffer, length_modifyFields,
      firstTLV_eq, if_pos ⟨hsome huser, hsome hpassword⟩, happn, huser, hpassword]
    simp only [stringSize, strlen, chars]
    omega

/-- **Which command lines have requests that fit the buffer**: the lengths of the strings, with what
is around them, are at most its size. -/
theorem requestsFit_iff {argv : List CStr} {p : UserInput} {profile : Profile}
    (hparse : parseUserInput (argv.map CStr.word) .init = some p) (hprofile : FromUser profile p)
    (sIsCdma sHdrPersonality : ℤ) :
    (InBuffer (wdsStartNwInterfaceReq sIsCdma sHdrPersonality profile) ↔
        StartFits sIsCdma profile) ∧
      (InBuffer (wdsModifyProfileSettingsReq profile) ↔ ModifyFits profile) ∧
      ∀ pincode : CStr, p.pincode = some pincode.word →
        (InBuffer (uimVerifyPinReqSend pincode) ↔ pincode.1.length + 24 ≤ wdmDefaultBufsize) := by
  have hp := parseUserInput_together hparse
  refine ⟨?_, ?_, fun pincode _ => inBuffer_verifyPin pincode⟩
  · rw [inBuffer_start, ends_start_iff, startFits_iff hprofile hp]
  · rw [inBuffer_modify, modifyFits_iff hprofile hp]

/-- A profile with these strings. -/
def userProfile (apn user password : CStr) (auth : ℤ) : Profile :=
  { Profile.default true false with
    apn := some apn
    user := some user
    password := some password
    auth := auth }

/-- `quectel-CM -s internet me secret -p 1234` -/
theorem requestsFit_iff_short :
    InBuffer (wdsStartNwInterfaceReq 0 0
      (userProfile ⟨ascii "internet", by decide⟩ ⟨ascii "me", by decide⟩
        ⟨ascii "secret", by decide⟩ 2)) ∧
      InBuffer (uimVerifyPinReqSend ⟨ascii "1234", by decide⟩) := by
  obtain ⟨hstart, -, hpin⟩ := @requestsFit_iff
    [⟨ascii "quectel-CM", by decide⟩, ⟨ascii "-s", by decide⟩, ⟨ascii "internet", by decide⟩,
      ⟨ascii "me", by decide⟩, ⟨ascii "secret", by decide⟩, ⟨ascii "-p", by decide⟩,
      ⟨ascii "1234", by decide⟩]
    { UserInput.init with
      pdp := 1
      apn := some "internet".toList
      user := some "me".toList
      password := some "secret".toList
      auth := 2
      pincode := some "1234".toList
      enableIpv4 := true }
    (userProfile ⟨ascii "internet", by decide⟩ ⟨ascii "me", by decide⟩
      ⟨ascii "secret", by decide⟩ 2)
    (by decide +kernel) ⟨by decide, by decide, by decide, rfl, rfl⟩ 0 0
  exact ⟨hstart.2 (by decide), (hpin ⟨ascii "1234", by decide⟩ (by decide)).2 (by decide)⟩

/-- An APN of 250 characters. -/
def longApn : CStr := ⟨List.replicate 250 97, by decide +kernel⟩

/-- `quectel-CM -s aaa…` -/
theorem not_requestsFit :
    ¬ ∀ (argv : List CStr) (p : UserInput) (profile : Profile) (sIsCdma sHdrPersonality : ℤ),
      parseUserInput (argv.map CStr.word) .init = some p → FromUser profile p →
        InBuffer (wdsStartNwInterfaceReq sIsCdma sHdrPersonality profile) := by
  intro h
  have hprofile : FromUser (userProfile longApn CStr.empty CStr.empty 0)
      { UserInput.init with
        pdp := 1
        apn := some (List.replicate 250 'a')
        user := some []
        password := some []
        enableIpv4 := true } := ⟨by decide +kernel, rfl, rfl, rfl, rfl⟩
  have hbuffer := h [⟨ascii "quectel-CM", by decide⟩, ⟨ascii "-s", by decide⟩, longApn] _ _ 0 0
    (by decide +kernel) hprofile
  rw [inBuffer_start, ends_start_iff, startFits_iff hprofile ⟨rfl, rfl⟩] at hbuffer
  exact absurd hbuffer (by decide +kernel)

end QuectelCM

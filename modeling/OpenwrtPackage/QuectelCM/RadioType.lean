/-
**The radio that is reported.**

Most TLVs of a system info set a flag, and then their order does not matter.  But a TLV that gives
service replaces the data classes and the device class of those in front of it, NR adds to them, and
the HDR personality counts only when the packet domain has been found attached in front of it.

Main definitions:

* `QuectelCM.Assigns`, `QuectelCM.Nr5gService` — the TLVs that say which radio gives service;
* `QuectelCM.PersonalitySafe`, `QuectelCM.RadioSafe` — lists of TLVs whose order does not matter;
* `QuectelCM.SameRadio` — two states from which the same is reported.

Main results:

* `QuectelCM.sHdrPersonality_iff` — the HDR personality at the end;
* `QuectelCM.radioType_iff` — **when the order of the TLVs does not matter**.
-/
import Mathlib.Data.List.Nodup
import OpenwrtPackage.QuectelCM.SysInfo

set_option relaxedAutoImplicit false
set_option autoImplicit false

namespace QuectelCM

open Qmi Bytes Tlv

/-! ### Kinds of TLVs -/

/-- One of the radios but for NR gives service. -/
def Assigns (f : Field) : Prop :=
  f.type ∈ [0x10, 0x11, 0x12, 0x13, 0x14] ∧ srvStatus (byteAt f.value) = true

def Nr5gService (f : Field) : Prop := f.type = 0x4A ∧ srvStatus (byteAt f.value) = true

/-- The HDR system info has the personality of eHRPD. -/
def Ehrpd (f : Field) : Prop := f.type = 0x16 ∧ hdrPersonality (byteAt f.value) = true

instance (f : Field) : Decidable (Assigns f) := inferInstanceAs (Decidable (_ ∧ _))

instance (f : Field) : Decidable (Nr5gService f) := inferInstanceAs (Decidable (_ ∧ _))

instance (f : Field) : Decidable (Ehrpd f) := inferInstanceAs (Decidable (_ ∧ _))

/-- The HDR system info with this personality has the packet domain itself, or no other has it. -/
def PersonalitySafe (fs : List Field) : Prop :=
  ∀ f ∈ fs, Ehrpd f → (∃ g ∈ fs, PsDomain g) → PsDomain f

/-- When NR gives service, no other radio does.  When it does not, at most one other radio does, or
CDMA and HDR do and both are reported as eHRPD. -/
def RadioSafe (fs : List Field) : Prop :=
  if ∃ f ∈ fs, Nr5gService f then ∀ f ∈ fs, ¬ Assigns f
  else ∀ f ∈ fs, ∀ g ∈ fs, Assigns f → Assigns g → f.type = g.type ∨
    (f.type ∈ [0x10, 0x11] ∧ g.type ∈ [0x10, 0x11] ∧ ∃ h ∈ fs, Ehrpd h ∧ PsDomain h)

instance (fs : List Field) : Decidable (PersonalitySafe fs) :=
  inferInstanceAs (Decidable (∀ f ∈ fs, Ehrpd f → (∃ g ∈ fs, PsDomain g) → PsDomain f))

instance (fs : List Field) : Decidable (RadioSafe fs) :=
  inferInstanceAs (Decidable (if ∃ f ∈ fs, Nr5gService f then ∀ f ∈ fs, ¬ Assigns f
    else ∀ f ∈ fs, ∀ g ∈ fs, Assigns f → Assigns g → f.type = g.type ∨
      (f.type ∈ [0x10, 0x11] ∧ g.type ∈ [0x10, 0x11] ∧ ∃ h ∈ fs, Ehrpd h ∧ PsDomain h)))

/-- The same type, personality and data capability are reported. -/
def SameRadio (s t : SysInfo) : Prop :=
  s.s5gType = t.s5gType ∧ s.flags.sHdrPersonality = t.flags.sHdrPersonality ∧
    s.dataCapStr = t.dataCapStr

/-! ### The personality -/

section

variable (s : SysFlags) (kind : SysTlv) (v : ℕ → UInt8)

theorem flagsStep_sHdrPersonality : (flagsStep s kind v).sHdrPersonality =
    if kind = .hdrInfo ∧ hdrPersonality v = true ∧ (srvDomain v = true ∨ s.psAttachedState ≠ 0) then
      2
    else s.sHdrPersonality := by
  cases hstatus : srvStatus v <;> cases hdomain : srvDomain v <;>
    cases hpersonality : hdrPersonality v <;> cases kind <;>
      simp [flagsStep, SysFlags.setPersonality, SysFlags.attach, SysFlags.setCdma, SysFlags.setLte,
        hstatus, hdomain, hpersonality]

theorem flagsStep_endcAvailable :
    ((flagsStep s kind v).endcAvailableValid, (flagsStep s kind v).endcAvailable) =
      if kind = .endc then (true, v 0) else (s.endcAvailableValid, s.endcAvailable) := by
  cases hstatus : srvStatus v <;> cases hdomain : srvDomain v <;> cases kind <;>
    simp [flagsStep, SysFlags.setPersonality, SysFlags.attach, SysFlags.setCdma, SysFlags.setLte,
      hstatus, hdomain]

theorem flagsStep_restrictDcnr :
    ((flagsStep s kind v).restrictDcnrValid, (flagsStep s kind v).restrictDcnr) =
      if kind = .dcnr then (true, v 0) else (s.restrictDcnrValid, s.restrictDcnr) := by
  cases hstatus : srvStatus v <;> cases hdomain : srvDomain v <;> cases kind <;>
    simp [flagsStep, SysFlags.setPersonality, SysFlags.attach, SysFlags.setCdma, SysFlags.setLte,
      hstatus, hdomain]

theorem flagsStep_pDataCapStr : (flagsStep s kind v).pDataCapStr =
    if kind = .tdscdma ∧ srvStatus v = true then "TD-SCDMA" else s.pDataCapStr := by
  cases hstatus : srvStatus v <;> cases hdomain : srvDomain v <;> cases kind <;>
    simp [flagsStep, SysFlags.setPersonality, SysFlags.attach, SysFlags.setCdma, SysFlags.setLte,
      hstatus, hdomain]

end

/-! ### The radio -/

/-- The data classes and the device class that a radio stands for. -/
def SysTlv.cap : SysTlv → Option SysCap
  | .cdma =>
      some ⟨wwanDataClass1xrtt ||| wwanDataClass1xevdo ||| wwanDataClass1xevdoReva |||
        wwanDataClass1xevdv ||| wwanDataClass1xevdoRevb, .cdma⟩
  | .hdr => some ⟨wwanDataClass3xrtt ||| wwanDataClassUmb, .cdma⟩
  | .gsm => some ⟨wwanDataClassGprs ||| wwanDataClassEdge, .gsm⟩
  | .wcdma => some ⟨wwanDataClassUmts, .gsm⟩
  | .lte => some ⟨wwanDataClassLte, .gsm⟩
  | _ => none

/-- The name under which it is reported. -/
def SysTlv.name (kind : SysTlv) (sHdrPersonality : ℕ) (nsa : Bool) : String :=
  match kind with
  | .cdma => if sHdrPersonality = 2 then "eHRPD" else "1XEVDO_REVB"
  | .hdr => if sHdrPersonality = 2 then "eHRPD" else "3XRTT"
  | .gsm => "EDGE"
  | .wcdma => "UMTS"
  | .lte => if nsa then "5G_NSA" else "LTE"
  | _ => ""

/-- NR stands beside LTE. -/
def SysFlags.nsa (s : SysFlags) : Bool :=
  s.endcAvailableValid && s.restrictDcnrValid && s.endcAvailable ≠ 0 && s.restrictDcnr = 0

theorem SysTlv.isSome_cap_iff (kind : SysTlv) :
    kind.cap.isSome = true ↔ kind ∈ [.cdma, .hdr, .gsm, .wcdma, .lte] := by
  cases kind <;> decide

theorem assigns_iff (f : Field) :
    Assigns f ↔ (sysTlv f.type).cap.isSome = true ∧ srvStatus (byteAt f.value) = true := by
  rw [SysTlv.isSome_cap_iff, ← mem_codes_iff (by decide)]
  exact Iff.rfl

section

variable {s : SysInfo} {kind : SysTlv} {c : SysCap}

theorem dataCapList_eq (s : SysInfo) : s.dataCapList =
    if has s.cap.dataCapList wwanDataClassLte = true ∧ s.flags.nsa = true then
      s.cap.dataCapList ||| wwanDataClass5gNsa
    else s.cap.dataCapList := by
  rw [SysInfo.dataCapList]
  refine if_congr ?_ rfl rfl
  simp only [SysFlags.nsa, Bool.and_eq_true, decide_eq_true_eq, and_assoc]

theorem dataCapStr_cap (hkind : kind.cap = some c) (h : s.cap = c) :
    s.dataCapStr = kind.name s.flags.sHdrPersonality s.flags.nsa := by
  obtain ⟨flags, cap⟩ := s
  subst h
  cases kind <;> cases hkind
  · by_cases hhdr : flags.sHdrPersonality = 2 <;>
      simp +decide [SysInfo.dataCapStr, dataCapList_eq, cdmaStr, SysTlv.name, hhdr]
  · by_cases hhdr : flags.sHdrPersonality = 2 <;>
      simp +decide [SysInfo.dataCapStr, dataCapList_eq, cdmaStr, SysTlv.name, hhdr]
  · simp +decide [SysInfo.dataCapStr, dataCapList_eq, gsmStr, SysTlv.name]
  · simp +decide [SysInfo.dataCapStr, dataCapList_eq, gsmStr, SysTlv.name]
  · cases hnsa : flags.nsa <;>
      simp +decide [SysInfo.dataCapStr, dataCapList_eq, gsmStr, SysTlv.name, hnsa]

/-- None of these radios is NR on its own. -/
theorem s5gType_cap (hkind : kind.cap = some c) (h : s.cap = c) :
    s.s5gType ≠ wwanDataClass5gSa := by
  obtain ⟨flags, cap⟩ := s
  subst h
  cases kind <;> cases hkind
  · simp +decide [SysInfo.s5gType]
  · simp +decide [SysInfo.s5gType]
  · simp +decide [SysInfo.s5gType, dataCapList_eq]
  · simp +decide [SysInfo.s5gType, dataCapList_eq]
  · cases hnsa : flags.nsa <;> simp +decide [SysInfo.s5gType, dataCapList_eq, hnsa]

/-- Only CDMA and HDR can have the same name, that of eHRPD. -/
theorem name_eq {kind' : SysTlv} {c' : SysCap} {hdr : ℕ} {nsa nsa' : Bool}
    (hkind : kind.cap = some c) (hkind' : kind'.cap = some c')
    (h : kind.name hdr nsa = kind'.name hdr nsa') :
    kind = kind' ∨ (kind = .cdma ∨ kind = .hdr) ∧ (kind' = .cdma ∨ kind' = .hdr) ∧ hdr = 2 := by
  by_cases hhdr : hdr = 2 <;> cases nsa <;> cases nsa' <;> cases kind <;> cases hkind <;>
    cases kind' <;> cases hkind' <;> simp_all [SysTlv.name]

/-- A class that has been added is there. -/
theorem has_or_self {cls : UInt32} (h : cls ≠ 0) (list : UInt32) :
    has (list ||| cls) cls = true := by
  have hbits : (list ||| cls) &&& cls = cls := by
    apply UInt32.toBitVec_inj.1
    ext i hi
    simp only [UInt32.toBitVec_and, UInt32.toBitVec_or, BitVec.getElem_and, BitVec.getElem_or]
    cases list.toBitVec[i] <;> simp
  rw [has, hbits]
  exact decide_eq_true h

/-- With NR in service the type is that of NR. -/
theorem s5gType_nr5g {list : UInt32} (h : s.cap = ⟨list ||| wwanDataClass5gSa, .gsm⟩) :
    s.s5gType = wwanDataClass5gSa := by
  have hsa : has s.dataCapList wwanDataClass5gSa = true := by
    rw [dataCapList_eq, h]
    split
    · rw [UInt32.or_assoc, UInt32.or_comm wwanDataClass5gSa, ← UInt32.or_assoc]
      exact has_or_self (by decide) _
    · exact has_or_self (by decide) _
  rw [SysInfo.s5gType, if_neg (by rw [h]; exact DeviceClass.noConfusion), if_pos hsa]

end

/-! ### The last radio -/

section

variable {s : SysInfo} {f : Field}

theorem see_cap (s : SysInfo) (f : Field) :
    (see s f).cap = capStep s.cap (sysTlv f.type) (byteAt f.value) := rfl

/-- A radio that gives service replaces what has been there. -/
theorem see_cap_assigns (h : Assigns f) (s : SysInfo) :
    (sysTlv f.type).cap = some (see s f).cap := by
  obtain ⟨hsome, hstatus⟩ := (assigns_iff f).1 h
  rw [see_cap]
  unfold capStep
  rw [if_neg (by simp [hstatus])]
  generalize sysTlv f.type = kind at hsome
  cases kind <;> first | rfl | cases hsome

theorem see_cap_nr5g (h : Nr5gService f) (s : SysInfo) :
    (see s f).cap = ⟨s.cap.dataCapList ||| wwanDataClass5gSa, .gsm⟩ := by
  have hkind : sysTlv f.type = .nr5g := (sysTlv_eq_iff (by decide)).2 h.1
  rw [see_cap, hkind]
  unfold capStep
  rw [if_neg (by simp [h.2])]

/-- The other TLVs leave it alone. -/
theorem see_cap_other (hassigns : ¬ Assigns f) (hnr5g : ¬ Nr5gService f) (s : SysInfo) :
    (see s f).cap = s.cap := by
  rw [see_cap]
  unfold capStep
  by_cases hstatus : srvStatus (byteAt f.value) = true
  · have hcap : ¬ (sysTlv f.type).cap.isSome = true := fun h =>
      hassigns ((assigns_iff f).2 ⟨h, hstatus⟩)
    have hkind : sysTlv f.type ≠ .nr5g := fun h =>
      hnr5g ⟨(sysTlv_eq_iff (by decide)).1 h, hstatus⟩
    rw [if_neg (by simp [hstatus])]
    generalize sysTlv f.type = kind at hcap hkind
    cases kind <;> first | rfl | exact absurd rfl hcap | exact absurd rfl hkind
  · rw [if_pos (by simpa using hstatus)]

end

/-! ### The personality at the end -/

/-- The personality after the TLVs `seen`. -/
structure Personal (s : SysFlags) (seen : List Field) : Prop where
  attached : s.psAttachedState ≠ 0 ↔ ∃ f ∈ seen, PsDomain f
  range : s.sHdrPersonality = 0 ∨ s.sHdrPersonality = 2
  found : s.sHdrPersonality = 2 → (∃ f ∈ seen, Ehrpd f) ∧ ∃ f ∈ seen, PsDomain f
  own : (∃ f ∈ seen, Ehrpd f ∧ PsDomain f) → s.sHdrPersonality = 2

theorem personal_start : Personal SysInfo.start.flags [] :=
  ⟨by decide, by decide, by decide, by simp⟩

/-- What one TLV makes of the personality. -/
theorem see_sHdrPersonality (s : SysInfo) (f : Field) : (see s f).flags.sHdrPersonality =
    if Ehrpd f ∧ (PsDomain f ∨ s.flags.psAttachedState ≠ 0) then 2
    else s.flags.sHdrPersonality := by
  have hflags : (see s f).flags = flagsStep s.flags (sysTlv f.type) (byteAt f.value) := rfl
  rw [hflags, flagsStep_sHdrPersonality]
  refine if_congr ?_ rfl rfl
  rw [sysTlv_eq_iff (by decide), ← and_assoc, psDomain_iff]
  refine and_congr_right fun h => or_congr_left ?_
  have hkind : sysTlv f.type = .hdrInfo := (sysTlv_eq_iff (by decide)).2 h.1
  rw [hkind]
  exact Iff.rfl

theorem Personal.step {s : SysInfo} {seen : List Field} (h : Personal s.flags seen) (f : Field) :
    Personal (see s f).flags (seen ++ [f]) := by
  have hflags : (see s f).flags = flagsStep s.flags (sysTlv f.type) (byteAt f.value) := rfl
  have hhdr := see_sHdrPersonality s f
  refine ⟨?_, ?_, ?_, ?_⟩
  · rw [hflags, flagsStep_psAttachedState, exists_mem_concat, ← h.attached, psDomain_iff]
    split
    · rename_i hdomain
      simp [hdomain]
    · rename_i hdomain
      simp [hdomain]
  · rw [hhdr]
    split
    · exact Or.inr rfl
    · exact h.range
  · rw [hhdr, exists_mem_concat, exists_mem_concat]
    split
    · rename_i hnew
      exact fun _ => ⟨Or.inr hnew.1, hnew.2.symm.imp_left h.attached.1⟩
    · exact fun h2 => ⟨Or.inl (h.found h2).1, Or.inl (h.found h2).2⟩
  · rw [hhdr, exists_mem_concat]
    split
    · exact fun _ => rfl
    · rename_i hnew
      rintro (hold | hown)
      · exact h.own hold
      · exact absurd ⟨hown.1, Or.inl hown.2⟩ hnew

theorem personal_final (fs : List Field) : Personal (fs.foldl see .start).flags fs :=
  Fold.invariant (I := fun s : SysInfo => Personal s.flags) personal_start
    (fun _ _ f h => h.step f) fs

/-- **The personality at the end**, when its order does not matter. -/
theorem sHdrPersonality_iff {fs : List Field} (hsafe : PersonalitySafe fs) :
    (fs.foldl see .start).flags.sHdrPersonality = 2 ↔ ∃ f ∈ fs, Ehrpd f ∧ PsDomain f := by
  have h := personal_final fs
  constructor
  · intro h2
    obtain ⟨⟨f, hf, hehrpd⟩, hdomain⟩ := h.found h2
    exact ⟨f, hf, hehrpd, hsafe f hf hehrpd hdomain⟩
  · exact h.own

/-- Without an HDR system info that has the personality it stays. -/
theorem foldl_sHdrPersonality {fs : List Field} (h : ∀ f ∈ fs, ¬ Ehrpd f) (s : SysInfo) :
    (fs.foldl see s).flags.sHdrPersonality = s.flags.sHdrPersonality := by
  induction fs generalizing s with
  | nil => rfl
  | cons f fs ih =>
      rw [List.foldl_cons, ih fun g hg => h g (List.mem_cons_of_mem _ hg), see_sHdrPersonality,
        if_neg fun hf => h f (List.mem_cons_self ..) hf.1]

/-! ### Orders that do not matter -/

section

variable {fs gs : List Field}

theorem PersonalitySafe.perm (h : PersonalitySafe fs) (hperm : fs.Perm gs) :
    PersonalitySafe gs := by
  intro f hf hehrpd hdomain
  obtain ⟨g, hg, hgd⟩ := hdomain
  exact h f (hperm.mem_iff.2 hf) hehrpd ⟨g, hperm.mem_iff.2 hg, hgd⟩

theorem exists_mem_perm (hperm : fs.Perm gs) (P : Field → Prop) :
    (∃ f ∈ fs, P f) ↔ ∃ f ∈ gs, P f :=
  exists_congr fun _ => and_congr_left fun _ => hperm.mem_iff

/-- States that agree in what is reported. -/
theorem sameRadio_of_parts {s t : SysInfo} (hcap : s.cap = t.cap)
    (hhdr : s.flags.sHdrPersonality = t.flags.sHdrPersonality) (hnsa : s.flags.nsa = t.flags.nsa)
    (hstr : s.flags.pDataCapStr = t.flags.pDataCapStr) : SameRadio s t := by
  have hlist : s.dataCapList = t.dataCapList := by
    rw [dataCapList_eq, dataCapList_eq, hcap, hnsa]
  refine ⟨?_, hhdr, ?_⟩
  · rw [SysInfo.s5gType, SysInfo.s5gType, hcap, hlist]
  · rw [SysInfo.dataCapStr, SysInfo.dataCapStr, hcap, hlist, hhdr, hstr]

theorem sHdrPersonality_perm (hperm : fs.Perm gs) (hsafe : PersonalitySafe fs) :
    (fs.foldl see .start).flags.sHdrPersonality = (gs.foldl see .start).flags.sHdrPersonality := by
  have hfs := sHdrPersonality_iff hsafe
  have hgs := sHdrPersonality_iff (hsafe.perm hperm)
  rw [exists_mem_perm hperm, ← hgs] at hfs
  have hrange := (personal_final fs).range
  have hrange' := (personal_final gs).range
  omega

/-- Only one TLV of each type is there. -/
theorem eq_of_type (hdistinct : (fs.map Field.type).Nodup) {f g : Field} (hf : f ∈ fs) (hg : g ∈ fs)
    (h : f.type = g.type) : f = g :=
  List.inj_on_of_nodup_map hdistinct hf hg h

theorem eq_of_sysTlv (hdistinct : (fs.map Field.type).Nodup) {f g : Field} (hf : f ∈ fs)
    (hg : g ∈ fs) {kind : SysTlv} (hkind : kind ≠ .other) (hfk : sysTlv f.type = kind)
    (hgk : sysTlv g.type = kind) : f = g :=
  eq_of_type hdistinct hf hg
    (((sysTlv_eq_iff hkind).1 hfk).trans ((sysTlv_eq_iff hkind).1 hgk).symm)

theorem nsa_perm (hperm : fs.Perm gs) (hdistinct : (fs.map Field.type).Nodup) (s : SysInfo) :
    (fs.foldl see s).flags.nsa = (gs.foldl see s).flags.nsa := by
  have hendc := @Fold.part_perm _ _ _ see
    (fun s => (s.flags.endcAvailableValid, s.flags.endcAvailable))
    (fun f => sysTlv f.type = .endc) _ (fun f => (true, byteAt f.value 0)) fs gs hperm
    (fun s f _ => flagsStep_endcAvailable s.flags _ _)
    (fun f hf g hg hfk hgk => by
      rw [eq_of_sysTlv hdistinct hf hg (by decide) hfk hgk]) s
  have hdcnr := @Fold.part_perm _ _ _ see
    (fun s => (s.flags.restrictDcnrValid, s.flags.restrictDcnr))
    (fun f => sysTlv f.type = .dcnr) _ (fun f => (true, byteAt f.value 0)) fs gs hperm
    (fun s f _ => flagsStep_restrictDcnr s.flags _ _)
    (fun f hf g hg hfk hgk => by
      rw [eq_of_sysTlv hdistinct hf hg (by decide) hfk hgk]) s
  rw [Prod.mk.injEq] at hendc hdcnr
  rw [SysFlags.nsa, SysFlags.nsa, hendc.1, hendc.2, hdcnr.1, hdcnr.2]

theorem pDataCapStr_perm (hperm : fs.Perm gs) (s : SysInfo) :
    (fs.foldl see s).flags.pDataCapStr = (gs.foldl see s).flags.pDataCapStr :=
  @Fold.part_perm _ _ _ see (fun s => s.flags.pDataCapStr)
    (fun f => sysTlv f.type = .tdscdma ∧ srvStatus (byteAt f.value) = true) _
    (fun _ => "TD-SCDMA") fs gs hperm
    (fun s _ _ => flagsStep_pDataCapStr s.flags _ _) (fun _ _ _ _ _ _ => rfl) s

/-- The radio when NR alone gives service. -/
theorem foldl_cap_nr5g (h : ∀ f ∈ fs, ¬ Assigns f) {s : SysInfo}
    (hs : s.cap.dataCapList ||| wwanDataClass5gSa = wwanDataClass5gSa)
    (hnr5g : s.cap = ⟨wwanDataClass5gSa, .gsm⟩ ∨ ∃ f ∈ fs, Nr5gService f) :
    (fs.foldl see s).cap = ⟨wwanDataClass5gSa, .gsm⟩ := by
  induction fs generalizing s with
  | nil => simpa using hnr5g
  | cons f fs ih =>
      have hrest : ∀ g ∈ fs, ¬ Assigns g := fun g hg => h g (List.mem_cons_of_mem _ hg)
      rw [List.foldl_cons]
      by_cases hf : Nr5gService f
      · have hcap := see_cap_nr5g hf s
        rw [hs] at hcap
        exact ih hrest (by rw [hcap]; decide) (Or.inl hcap)
      · have hcap := see_cap_other (h f (List.mem_cons_self ..)) hf s
        refine ih hrest (by rw [hcap]; exact hs) ?_
        rw [hcap]
        refine hnr5g.imp_right ?_
        rintro ⟨g, hg, hgn⟩
        rcases List.mem_cons.1 hg with rfl | hg
        · exact absurd hgn hf
        · exact ⟨g, hg, hgn⟩

/-- What a radio in service writes. -/
theorem see_cap_eq (hnr5g : ∀ f ∈ fs, ¬ Nr5gService f) (s : SysInfo) {f : Field} (hf : f ∈ fs) :
    (see s f).cap = if Assigns f then (see .start f).cap else s.cap := by
  split
  · rename_i hassigns
    exact Option.some.inj ((see_cap_assigns hassigns s).symm.trans
      (see_cap_assigns hassigns .start))
  · rename_i hassigns
    exact see_cap_other hassigns (hnr5g f hf) s

/-- CDMA and HDR write the same device class. -/
theorem deviceClass_cdma {f : Field} (hassigns : Assigns f) (htype : f.type ∈ [0x10, 0x11])
    (s : SysInfo) : (see s f).cap.deviceClass = .cdma := by
  have hcap := see_cap_assigns hassigns s
  simp only [List.mem_cons, List.not_mem_nil, or_false] at htype
  rcases htype with htype | htype
  · rw [htype] at hcap
    rw [← Option.some.inj hcap]
  · rw [htype] at hcap
    rw [← Option.some.inj hcap]

/-- When CDMA and HDR are the radios that give service, the device class is CDMA. -/
theorem foldl_deviceClass (hnr5g : ∀ f ∈ fs, ¬ Nr5gService f) (hsome : ∃ f ∈ fs, Assigns f)
    (hcdma : ∀ f ∈ fs, Assigns f → f.type ∈ [0x10, 0x11]) :
    (fs.foldl see .start).cap.deviceClass = .cdma := by
  rw [@Fold.part_eq _ _ _ see (fun s => s.cap.deviceClass)
    (fun t f => if Assigns f then .cdma else t) fs (fun s f hf => by
      split
      · rename_i hassigns
        exact deviceClass_cdma hassigns (hcdma f hf hassigns) s
      · rename_i hassigns
        rw [see_cap_other hassigns (hnr5g f hf)])]
  exact Fold.eq_of_writer hsome _

/-- Two states of eHRPD. -/
theorem sameRadio_ehrpd {s t : SysInfo} (hs : s.cap.deviceClass = .cdma)
    (ht : t.cap.deviceClass = .cdma) (hhdr : s.flags.sHdrPersonality = 2)
    (hhdr' : t.flags.sHdrPersonality = 2) : SameRadio s t := by
  refine ⟨?_, hhdr.trans hhdr'.symm, ?_⟩
  · rw [SysInfo.s5gType, SysInfo.s5gType, if_pos hs, if_pos ht]
  · rw [SysInfo.dataCapStr, SysInfo.dataCapStr, if_pos hs, if_pos ht, hhdr, hhdr', cdmaStr, cdmaStr,
      if_pos rfl, if_pos rfl]

/-- **Safe lists**: the order does not matter. -/
theorem sameRadio_of_safe (hperm : fs.Perm gs) (hdistinct : (fs.map Field.type).Nodup)
    (hpersonality : PersonalitySafe fs) (hradio : RadioSafe fs) :
    SameRadio (fs.foldl see .start) (gs.foldl see .start) := by
  have hhdr := sHdrPersonality_perm hperm hpersonality
  have hparts : (fs.foldl see .start).cap = (gs.foldl see .start).cap →
      SameRadio (fs.foldl see .start) (gs.foldl see .start) := fun hcap =>
    sameRadio_of_parts hcap hhdr (nsa_perm hperm hdistinct _) (pDataCapStr_perm hperm _)
  rw [RadioSafe] at hradio
  by_cases hnr5g : ∃ f ∈ fs, Nr5gService f
  · rw [if_pos hnr5g] at hradio
    refine hparts ?_
    rw [foldl_cap_nr5g hradio (by decide) (Or.inr hnr5g),
      foldl_cap_nr5g (fun f hf => hradio f (hperm.mem_iff.2 hf)) (by decide)
        (Or.inr ((exists_mem_perm hperm _).1 hnr5g))]
  · rw [if_neg hnr5g] at hradio
    have hno : ∀ f ∈ fs, ¬ Nr5gService f := fun f hf h => hnr5g ⟨f, hf, h⟩
    by_cases hone : ∀ f ∈ fs, ∀ g ∈ fs, Assigns f → Assigns g → f.type = g.type
    · refine hparts (@Fold.part_perm _ _ _ see SysInfo.cap Assigns _
        (fun f => (see .start f).cap) fs gs hperm
        (fun s f hf => see_cap_eq hno s hf) (fun f hf g hg hfa hga => ?_) _)
      rw [eq_of_type hdistinct hf hg (hone f hf g hg hfa hga)]
    · -- two radios, CDMA and HDR, and both are eHRPD
      simp only [not_forall] at hone
      obtain ⟨f, hf, g, hg, hfa, hga, hne⟩ := hone
      obtain ⟨hftype, hgtype, hehrpd⟩ := (hradio f hf g hg hfa hga).resolve_left hne
      have hcdma : ∀ x ∈ fs, Assigns x → x.type ∈ [0x10, 0x11] := by
        intro x hx hxa
        rcases hradio x hx f hf hxa hfa with hsame | hboth
        · rw [hsame]
          exact hftype
        · exact hboth.1
      have h2 := (sHdrPersonality_iff hpersonality).2 hehrpd
      exact sameRadio_ehrpd (foldl_deviceClass hno ⟨f, hf, hfa⟩ hcdma)
        (foldl_deviceClass (fun x hx => hno x (hperm.mem_iff.2 hx))
          ⟨f, hperm.mem_iff.1 hf, hfa⟩ (fun x hx => hcdma x (hperm.mem_iff.2 hx)))
        h2 (hhdr.symm.trans h2)

/-! ### Orders that matter -/

/-- A TLV that is put at the end. -/
theorem perm_concat_erase {f : Field} (hf : f ∈ fs) : (fs.erase f ++ [f]).Perm fs :=
  List.perm_append_comm.trans (List.perm_cons_erase hf).symm

/-- With an HDR system info in front of all others, and without the packet domain, the personality
is not seen. -/
theorem sHdrPersonality_front (hdistinct : (fs.map Field.type).Nodup) {f : Field} (hf : f ∈ fs)
    (hehrpd : Ehrpd f) (hdomain : ¬ PsDomain f) :
    ((f :: fs.erase f).foldl see .start).flags.sHdrPersonality = 0 := by
  have hno : ∀ g ∈ fs.erase f, ¬ Ehrpd g := by
    intro g hg hgehrpd
    obtain ⟨hne, hgmem⟩ := (List.Nodup.of_map _ hdistinct).mem_erase_iff.1 hg
    exact hne (eq_of_type hdistinct hgmem hf (hgehrpd.1.trans hehrpd.1.symm))
  rw [List.foldl_cons, foldl_sHdrPersonality hno, see_sHdrPersonality, if_neg]
  · rfl
  · rintro ⟨-, hown | hattached⟩
    · exact hdomain hown
    · exact hattached rfl

/-- Behind a TLV that has the packet domain it is. -/
theorem sHdrPersonality_back {f g : Field} (hg : g ∈ fs) (hgdomain : PsDomain g)
    (hehrpd : Ehrpd f) : ((fs ++ [f]).foldl see .start).flags.sHdrPersonality = 2 := by
  have hattached := (personal_final fs).attached.2 ⟨g, hg, hgdomain⟩
  rw [List.foldl_concat, see_sHdrPersonality, if_pos ⟨hehrpd, Or.inr hattached⟩]

theorem personalitySafe_of_sameRadio (hdistinct : (fs.map Field.type).Nodup)
    (h : ∀ gs gs' : List Field, gs.Perm fs → gs'.Perm fs →
      SameRadio (gs.foldl see .start) (gs'.foldl see .start)) : PersonalitySafe fs := by
  rintro f hf hehrpd ⟨g, hg, hgdomain⟩
  by_contra hdomain
  have hne : g ≠ f := by
    rintro rfl
    exact hdomain hgdomain
  have hfront := sHdrPersonality_front hdistinct hf hehrpd hdomain
  have hback := sHdrPersonality_back ((List.mem_erase_of_ne hne).2 hg) hgdomain hehrpd
  have hsame := (h _ _ (List.perm_cons_erase hf).symm (perm_concat_erase hf)).2.1
  rw [hfront, hback] at hsame
  exact absurd hsame (by decide)

/-- The radio that comes last has replaced the others. -/
theorem cap_last {f : Field} (hassigns : Assigns f) (gs : List Field) :
    (sysTlv f.type).cap = some ((gs ++ [f]).foldl see .start).cap := by
  rw [List.foldl_concat]
  exact see_cap_assigns hassigns _

/-- NR behind them is reported as NR. -/
theorem s5gType_last {f : Field} (hnr5g : Nr5gService f) (gs : List Field) :
    ((gs ++ [f]).foldl see .start).s5gType = wwanDataClass5gSa := by
  rw [List.foldl_concat]
  exact s5gType_nr5g (see_cap_nr5g hnr5g _)

theorem type_mem_cdma {f : Field} (h : sysTlv f.type = .cdma ∨ sysTlv f.type = .hdr) :
    f.type ∈ [0x10, 0x11] := by
  rw [sysTlv_eq_iff (by decide), sysTlv_eq_iff (by decide)] at h
  simpa [SysTlv.code] using h

theorem Assigns.ne_other {f : Field} (h : Assigns f) : sysTlv f.type ≠ .other := by
  intro hother
  have hcap := ((assigns_iff f).1 h).1
  rw [hother] at hcap
  exact absurd hcap (by decide)

theorem radioSafe_of_sameRadio (hpersonality : PersonalitySafe fs)
    (h : ∀ gs gs' : List Field, gs.Perm fs → gs'.Perm fs →
      SameRadio (gs.foldl see .start) (gs'.foldl see .start)) : RadioSafe fs := by
  rw [RadioSafe]
  split
  · -- NR behind the other radio, and in front of it
    rename_i hnr5g
    obtain ⟨n, hn, hnr5g⟩ := hnr5g
    intro f hf hassigns
    have hsame := (h _ _ (perm_concat_erase hf) (perm_concat_erase hn)).1
    rw [s5gType_last hnr5g] at hsame
    exact s5gType_cap (cap_last hassigns _) rfl hsame
  · intro f hf g hg hfa hga
    have hsame := h _ _ (perm_concat_erase hf) (perm_concat_erase hg)
    have hfcap := cap_last hfa (fs.erase f)
    have hgcap := cap_last hga (fs.erase g)
    have hname := hsame.2.2
    rw [dataCapStr_cap hfcap rfl, dataCapStr_cap hgcap rfl, ← hsame.2.1] at hname
    rcases name_eq hfcap hgcap hname with hkind | ⟨hfk, hgk, hhdr⟩
    · have htype := (sysTlv_eq_iff hga.ne_other).1 hkind
      rw [code_sysTlv hga.ne_other] at htype
      exact Or.inl htype
    · have hperm := perm_concat_erase hf
      have hehrpd := (sHdrPersonality_iff (hpersonality.perm hperm.symm)).1 hhdr
      exact Or.inr ⟨type_mem_cdma hfk, type_mem_cdma hgk, (exists_mem_perm hperm _).1 hehrpd⟩

/-- **The order of these TLVs does not matter** exactly when they are safe. -/
theorem sameRadio_iff (hdistinct : (fs.map Field.type).Nodup) :
    (∀ gs gs' : List Field, gs.Perm fs → gs'.Perm fs →
      SameRadio (gs.foldl see .start) (gs'.foldl see .start)) ↔
        PersonalitySafe fs ∧ RadioSafe fs := by
  constructor
  · intro h
    have hpersonality := personalitySafe_of_sameRadio hdistinct h
    exact ⟨hpersonality, radioSafe_of_sameRadio hpersonality h⟩
  · rintro ⟨hpersonality, hradio⟩ gs gs' hgs hgs'
    have hsame := sameRadio_of_safe hgs.symm hdistinct hpersonality hradio
    have hsame' := sameRadio_of_safe hgs'.symm hdistinct hpersonality hradio
    exact ⟨hsame.1.symm.trans hsame'.1, hsame.2.1.symm.trans hsame'.2.1,
      hsame.2.2.symm.trans hsame'.2.2⟩

end

/-! ### Responses in two orders -/

/-- The TLV of the result is none of the cases. -/
theorem see_resultTlv : see .start resultTlv = .start := by decide

/-- What the function leaves, and what it reports, on a response with these TLVs in some order. -/
def SameReport (old : Radio) (fuel : ℕ) (m m' : List UInt8) : Prop :=
  ∃ ps radio text ps' radio' text',
    requestRegistrationState2 (.response m) old fuel = some (0, ps, radio, some text) ∧
    requestRegistrationState2 (.response m') old fuel = some (0, ps', radio', some text') ∧
    radio.s5gType = radio'.s5gType ∧ radio.sHdrPersonality = radio'.sHdrPersonality ∧ text = text'

theorem sameReport_iff {fs fs' : List Field} {m m' : List UInt8} {old : Radio} {fuel : ℕ}
    (h : IsSysInfo m (resultTlv :: fs)) (h' : IsSysInfo m' (resultTlv :: fs'))
    (hfuel : (resultTlv :: fs).length < fuel) (hfuel' : (resultTlv :: fs').length < fuel) :
    SameReport old fuel m m' ↔ SameRadio (fs.foldl see .start) (fs'.foldl see .start) := by
  have hrun := h.run old hfuel
  have hrun' := h'.run old hfuel'
  rw [List.foldl_cons, see_resultTlv] at hrun hrun'
  constructor
  · rintro ⟨ps, radio, text, ps', radio', text', hm, hm', htype, hhdr, htext⟩
    rw [hrun] at hm
    rw [hrun'] at hm'
    cases hm
    cases hm'
    exact ⟨htype, hhdr, htext⟩
  · rintro ⟨htype, hhdr, htext⟩
    exact ⟨_, _, _, _, _, _, hrun, hrun', htype, hhdr, htext⟩

/-- The bytes of a list of TLVs, in another order, are as many. -/
theorem encodeAll_length_perm {fs gs : List Field} (hperm : gs.Perm fs) :
    (encodeAll gs).length = (encodeAll fs).length := by
  rw [encodeAll, encodeAll]
  exact (hperm.flatMap_right encode).length_eq

/-- **Two responses with the same TLVs report the same radio**, whatever their orders, exactly when
the TLVs are safe. -/
theorem radioType_iff {fs : List Field} (hdistinct : (fs.map Field.type).Nodup)
    (hsize : (encodeAll (resultTlv :: fs)).length < 65536) (hlong : ∀ f ∈ fs, LongEnough f) :
    (∀ (gs gs' : List Field) (m m' : List UInt8) (old : Radio) (fuel : ℕ),
      gs.Perm fs → gs'.Perm fs → IsSysInfo m (resultTlv :: gs) → IsSysInfo m' (resultTlv :: gs') →
        fs.length + 1 < fuel → SameReport old fuel m m') ↔
      PersonalitySafe fs ∧ RadioSafe fs := by
  rw [← sameRadio_iff hdistinct]
  constructor
  · intro h gs gs' hgs hgs'
    have hresp : ∀ gs : List Field, gs.Perm fs → IsSysInfo (sysInfoResp gs) (resultTlv :: gs) := by
      intro gs hgs
      refine isSysInfo_sysInfoResp ?_ fun f hf => hlong f (hgs.mem_iff.1 hf)
      rw [encodeAll_length_perm (hgs.cons resultTlv)]
      exact hsize
    have hm := hresp gs hgs
    have hm' := hresp gs' hgs'
    have hreport := h gs gs' _ _ ⟨false, 0, 0⟩ (fs.length + 2) hgs hgs' hm hm' (by omega)
    exact (sameReport_iff hm hm' (by simp [hgs.length_eq]) (by simp [hgs'.length_eq])).1 hreport
  · intro h gs gs' m m' old fuel hgs hgs' hm hm' hfuel
    exact (sameReport_iff hm hm' (by simpa [hgs.length_eq] using hfuel)
      (by simpa [hgs'.length_eq] using hfuel)).2 (h gs gs' hgs hgs')

/-- LTE alone in service, with the packet domain: its two TLVs in either order. -/
theorem radioType_iff_lte :
    SameReport ⟨false, 0, 0⟩ 4 (sysInfoResp [⟨0x14, [2, 2, 1]⟩, ⟨0x19, [1, 3]⟩])
      (sysInfoResp [⟨0x19, [1, 3]⟩, ⟨0x14, [2, 2, 1]⟩]) :=
  (@radioType_iff [⟨0x14, [2, 2, 1]⟩, ⟨0x19, [1, 3]⟩] (by decide) (by decide) (by decide)).2
    ⟨by decide, by decide⟩ _ _ _ _ _ 4 (by decide) (by decide)
    (isSysInfo_sysInfoResp (by decide) (by decide)) (isSysInfo_sysInfoResp (by decide) (by decide))
    (by decide)

/-- LTE and NR in service: with NR behind LTE it is NR, with NR in front it is LTE. -/
theorem not_radioType :
    ¬ ∀ (fs gs : List Field) (m m' : List UInt8) (old : Radio) (fuel : ℕ),
      (fs.map Field.type).Nodup → gs.Perm fs → IsSysInfo m (resultTlv :: fs) →
        IsSysInfo m' (resultTlv :: gs) → fs.length + 1 < fuel → SameReport old fuel m m' := by
  intro h
  have hreport := h [⟨0x14, [2, 2, 1]⟩, ⟨0x4A, [2, 2, 1]⟩] [⟨0x4A, [2, 2, 1]⟩, ⟨0x14, [2, 2, 1]⟩]
    (sysInfoResp [⟨0x14, [2, 2, 1]⟩, ⟨0x4A, [2, 2, 1]⟩])
    (sysInfoResp [⟨0x4A, [2, 2, 1]⟩, ⟨0x14, [2, 2, 1]⟩]) ⟨false, 0, 0⟩ 4 (by decide) (by decide)
    (isSysInfo_sysInfoResp (by decide) (by decide)) (isSysInfo_sysInfoResp (by decide) (by decide))
    (by decide)
  obtain ⟨ps, radio, text, ps', radio', text', hm, hm', htype, -⟩ := hreport
  have hrun : requestRegistrationState2
      (.response (sysInfoResp [⟨0x14, [2, 2, 1]⟩, ⟨0x4A, [2, 2, 1]⟩])) ⟨false, 0, 0⟩ 4 =
        some (0, 0, ⟨false, wwanDataClass5gSa, 0⟩, some "5G_SA") := by decide +kernel
  have hrun' : requestRegistrationState2
      (.response (sysInfoResp [⟨0x4A, [2, 2, 1]⟩, ⟨0x14, [2, 2, 1]⟩])) ⟨false, 0, 0⟩ 4 =
        some (0, 0, ⟨false, wwanDataClassNone, 0⟩, some "LTE") := by decide +kernel
  rw [hrun] at hm
  rw [hrun'] at hm'
  cases hm
  cases hm'
  exact absurd htype (by decide)

end QuectelCM

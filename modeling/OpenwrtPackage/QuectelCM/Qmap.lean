/-
**Which multiplexed channel is used.**

With QMAP several data calls share one network adapter, each with an interface of its own.
`ql_qmi_qmap_mode_detect` and `ql_mbim_mhi_qmap_mode_detect` find out which interface and which
multiplexer identifier belong to the call that the user selects with `-n` or `-m`: from a table
that the driver gives, or, with the driver of the upstream kernel, from a list of identifiers in a
file.

* `QuectelCM.qmiOffsetId`, `QuectelCM.mbimOffsetId` — the places in the table of eight that the
  two functions look at;
* `QuectelCM.fromAddMux` — the list of the upstream driver;
* `QuectelCM.qmiQmapModeDetect`, `QuectelCM.mbimMhiQmapModeDetect` — the functions;
* `QuectelCM.offsetIds_inTable_iff` — **which command lines select a place in the table**;
* `QuectelCM.selectsEntry_iff` — **which lists give the selected identifier**.
-/
import OpenwrtPackage.QuectelCM.UserInput

set_option relaxedAutoImplicit false
set_option autoImplicit false

namespace QuectelCM

open CScan

/-! ### What the functions read -/

/-- `RMNET_INFO`; the names in front of their NUL. -/
structure RmnetInfo where
  size : UInt32
  rxUrbSize : UInt32
  qmapMode : UInt32
  qmapVersion : UInt32
  ifname : Fin 8 → List Char
  muxId : Fin 8 → UInt8

/-- The files of `sysfs` that are looked at. -/
inductive SysPath
  /-- `/sys/class/net/%s/qmap_mode` -/
  | netQmapMode (adapter : List Char)
  /-- `/sys/module/%s/parameters/qmap_mode` -/
  | moduleQmapMode (driver : List Char)
  /-- `/sys/class/net/%s/device/driver/module/parameters/qmap_mode` -/
  | driverQmapMode (adapter : List Char)
  /-- `/sys/class/net/%s/qmap_size` -/
  | qmapSize (adapter : List Char)
  /-- `/sys/class/net/qmimux%d` -/
  | qmimux (i : ℤ)
  /-- `/sys/class/net/%s/qmi/add_mux` -/
  | addMux (adapter : List Char)
  deriving DecidableEq

/-- What `access` says of a file: that it can be read, `ENOENT`, or another error. -/
inductive Access
  | readable
  | missing
  | denied
  deriving DecidableEq

/-- The system: the driver of the adapter, what the driver tells (zeroes, when it gives no answer),
and the files. -/
structure QmapSystem where
  driverName : List Char
  rmnetInfo : RmnetInfo
  access : SysPath → Access
  /-- what is in a file; nothing, when it cannot be opened -/
  content : SysPath → List Char

/-- The part of `PROFILE_T` that is about QMAP. -/
structure QmapProfile where
  pdp : ℤ
  qmichannel : List Char
  usbnetAdapter : List Char
  qmapnetAdapter : List Char
  driverName : List Char
  qmapMode : ℤ
  qmapSize : ℤ
  qmapVersion : ℤ
  muxid : ℤ
  deriving DecidableEq

/-- `s_profile` when the channel and the adapter have been found. -/
def QmapProfile.start (user : UserInput) (qmichannel usbnetAdapter : List Char) : QmapProfile where
  pdp := user.pdp
  qmichannel := qmichannel
  usbnetAdapter := usbnetAdapter
  qmapnetAdapter := []
  driverName := []
  qmapMode := 0
  qmapSize := 0
  qmapVersion := 0
  muxid := user.muxid

/-- `strncpy(profile->driver_name, …)` -/
def QmapProfile.setDriver (p : QmapProfile) (driverName : List Char) : QmapProfile :=
  { p with driverName := driverName.take 31 }

/-- `ql_fread`: what fits into the buffer. -/
def QmapSystem.qlFread (sys : QmapSystem) (file : SysPath) (size : ℕ) : List Char :=
  (sys.content file).take size

/-! ### The table of the driver -/

/-- An index of `mux_id[8]` and `ifname[8]`. -/
def InTable (i : ℤ) : Prop := 0 ≤ i ∧ i ≤ 7

instance (i : ℤ) : Decidable (InTable i) := inferInstanceAs (Decidable (_ ∧ _))

/-- `ifname[i]` and `mux_id[i]`; outside of the arrays there is nothing to be read. -/
def RmnetInfo.entry (info : RmnetInfo) (i : ℤ) : Option (List Char × UInt8) :=
  if h : i.toNat < 8 ∧ 0 ≤ i then some (info.ifname ⟨i.toNat, h.1⟩, info.muxId ⟨i.toNat, h.1⟩)
  else none

/-- `offset_id` in `ql_qmi_qmap_mode_detect` -/
def qmiOffsetId (p : QmapProfile) (info : RmnetInfo) : ℤ :=
  if info.qmapMode = 1 then 0 else if p.muxid = 0 then p.pdp - 1 else p.muxid - 0x81

/-- `offset_id` in `ql_mbim_mhi_qmap_mode_detect` -/
def mbimOffsetId (p : QmapProfile) (info : RmnetInfo) : ℤ :=
  if info.qmapMode = 1 then 0 else p.pdp - 1

/-- `if (profile->rmnet_info.size)` of `ql_qmi_qmap_mode_detect`. -/
def qmiFromDriver (p : QmapProfile) (info : RmnetInfo) : Option QmapProfile :=
  if info.qmapMode = 0 then some { p with qmapMode := 0 }
  else (info.entry (qmiOffsetId p info)).map fun e =>
    { p with
      qmapMode := toInt info.qmapMode.toNat
      muxid := e.2.toNat
      qmapnetAdapter := e.1.take 31
      qmapSize := toInt info.rxUrbSize.toNat
      qmapVersion := toInt info.qmapVersion.toNat }

/-- `ql_mbim_mhi_qmap_mode_detect`; `none` where an access leaves the table. -/
def mbimMhiQmapModeDetect (sys : QmapSystem) (p : QmapProfile) : Option QmapProfile :=
  let info := sys.rmnetInfo
  if info.size = 0 then some p
  else if info.qmapMode = 0 then some { p with qmapMode := 0 }
  else (info.entry (mbimOffsetId p info)).map fun e =>
    { p with
      qmapMode := toInt info.qmapMode.toNat
      muxid := p.pdp
      qmapnetAdapter := e.1
      qmapSize := toInt info.rxUrbSize.toNat
      qmapVersion := toInt info.qmapVersion.toNat }

/-! ### The parameter of the driver -/

/-- Where the search for a readable file ends. -/
inductive ModeFile
  | found (file : SysPath)
  | denied
  | missing
  deriving DecidableEq

/-- The next file is tried only when there is no such file. -/
def findModeFile (access : SysPath → Access) : List SysPath → ModeFile
  | [] => .missing
  | file :: files =>
      match access file with
      | .readable => .found file
      | .denied => .denied
      | .missing => findModeFile access files

def modeFiles (p : QmapProfile) : List SysPath :=
  [.netQmapMode p.usbnetAdapter, .moduleQmapMode p.driverName, .driverQmapMode p.usbnetAdapter]

/-- `if (!access(pl->filename, R_OK))` -/
def fromModeFile (sys : QmapSystem) (p : QmapProfile) (file : SysPath) : QmapProfile :=
  let buf := sys.qlFread file 128
  let mode := atoi buf
  let muxid := if p.muxid = 0 then p.pdp + 0x80 else p.muxid
  if buf = [] then p
  else if mode > 1 then
    { p with
      qmapMode := mode
      muxid := muxid
      qmapnetAdapter := (p.usbnetAdapter.take 16 ++ '.' :: decInt (muxid - 0x80)).take 31 }
  else if mode = 1 then
    { p with qmapMode := mode, muxid := 0x81, qmapnetAdapter := p.usbnetAdapter }
  else { p with qmapMode := mode }

/-! ### The list of the upstream driver -/

/-- `qmidev_is_qmiwwan` -/
def qmidevIsQmiwwan (qmichannel : List Char) : Bool := "/dev/cdc-wdm".toList.isPrefixOf qmichannel

/-- `"qmimux%d"` -/
def qmimux (i : ℤ) : List Char := ['q', 'm', 'i', 'm', 'u', 'x'] ++ decInt i

/-- `buf[i]`, with zeroes behind what has been read; outside of `buf[128]` there is nothing to be
read. -/
def bufAt (buf : List Char) (i : ℤ) : Option ℤ :=
  if 0 ≤ i ∧ i < 128 then some ((((buf[i.toNat]?).map Char.toNat).getD 0 : ℕ) : ℤ) else none

/-- `(buf[5*i + 2] - '0')*16 + (buf[5*i + 3] - '0')` -/
def muxAt (buf : List Char) (i : ℤ) : Option ℤ :=
  (bufAt buf (5 * i + 2)).bind fun hi =>
    (bufAt buf (5 * i + 3)).map fun lo => (hi - 48) * 16 + (lo - 48)

/-- The entry that is read of a list with `n` characters. -/
def muxIndex (p : QmapProfile) (n : ℕ) : ℤ :=
  if n / 5 = 1 then 0 else if p.muxid = 0 then p.pdp - 1 else p.muxid - 0x81

/-- The number in the name of the interface, when `muxid` has just been read: with `-m`, it is
computed from the new `muxid`. -/
def muxInterface (p : QmapProfile) (n : ℕ) (muxid : ℤ) : ℤ :=
  if n / 5 = 1 then 0 else if p.muxid = 0 then p.pdp - 1 else muxid - 0x81

/-- `else if (qmidev_is_qmiwwan(profile->qmichannel))` -/
def fromAddMux (sys : QmapSystem) (p : QmapProfile) : Option QmapProfile :=
  if sys.access (.qmimux (p.pdp - 1)) ≠ .readable then some p
  else
    let buf := sys.qlFread (.addMux p.usbnetAdapter) 128
    if buf.length < 5 then some p
    else (muxAt buf (muxIndex p buf.length)).map fun muxid =>
      { p with
        qmapMode := buf.length / 5
        muxid := muxid
        qmapnetAdapter := qmimux (muxInterface p buf.length muxid) }

/-! ### The function -/

/-- `_out:` -/
def qmapDefaults (sys : QmapSystem) (p : QmapProfile) : QmapProfile :=
  let file := SysPath.qmapSize p.usbnetAdapter
  let buf := sys.qlFread file 32
  let size := if sys.access file = .readable ∧ buf ≠ [] then atoi buf else 16 * 1024
  if p.qmapMode = 0 then p
  else
    { p with
      qmapSize := if p.qmapSize = 0 then size else p.qmapSize
      qmapVersion := if p.qmapVersion = 0 then 5 else p.qmapVersion }

/-- What is found out about QMAP, from the driver or from one of the files. -/
def qmapOf (sys : QmapSystem) (p : QmapProfile) : Option QmapProfile :=
  if sys.rmnetInfo.size ≠ 0 then qmiFromDriver p sys.rmnetInfo
  else
    match findModeFile sys.access (modeFiles p) with
    | .found file => some (fromModeFile sys p file)
    | .denied => some p
    | .missing => if qmidevIsQmiwwan p.qmichannel then fromAddMux sys p else some p

/-- `ql_qmi_qmap_mode_detect`; `none` where an access leaves an array. -/
def qmiQmapModeDetect (sys : QmapSystem) (p : QmapProfile) : Option QmapProfile :=
  (qmapOf sys (p.setDriver sys.driverName)).map (qmapDefaults sys)

/-! ### Inside the table -/

theorem entry_isSome_iff {info : RmnetInfo} {i : ℤ} :
    (info.entry i).isSome ↔ InTable i := by
  have hiff : i.toNat < 8 ∧ 0 ≤ i ↔ InTable i := by
    unfold InTable
    omega
  rw [RmnetInfo.entry]
  split
  · rename_i h
    exact ⟨fun _ => hiff.1 h, fun _ => rfl⟩
  · rename_i h
    constructor
    · intro hnone
      cases hnone
    · intro hin
      exact absurd (hiff.2 hin) h

/-- The function stays inside its arrays exactly when its index is in the table. -/
theorem qmiQmapModeDetect_isSome_iff {sys : QmapSystem} (hsize : sys.rmnetInfo.size ≠ 0)
    (hmode : sys.rmnetInfo.qmapMode ≠ 0) (p : QmapProfile) :
    (qmiQmapModeDetect sys p).isSome ↔ InTable (qmiOffsetId p sys.rmnetInfo) := by
  rw [qmiQmapModeDetect, qmapOf, if_pos hsize, qmiFromDriver, if_neg hmode, Option.isSome_map,
    Option.isSome_map, entry_isSome_iff]
  rfl

theorem mbimMhiQmapModeDetect_isSome_iff {sys : QmapSystem} (hsize : sys.rmnetInfo.size ≠ 0)
    (hmode : sys.rmnetInfo.qmapMode ≠ 0) (p : QmapProfile) :
    (mbimMhiQmapModeDetect sys p).isSome ↔ InTable (mbimOffsetId p sys.rmnetInfo) := by
  rw [mbimMhiQmapModeDetect, if_neg hsize, if_neg hmode, Option.isSome_map, entry_isSome_iff]

/-- A number that `-n` or `-m` may select: there is none, or it begins with a digit from 1
to 8. -/
def Selectable (value : Option Word) : Prop :=
  ∀ w ∈ value, 1 ≤ firstDigit w ∧ firstDigit w ≤ 8

theorem selectable_none : Selectable none := by
  rintro w ⟨⟩

theorem selectable_some {w : Word} :
    Selectable (some w) ↔ 1 ≤ firstDigit w ∧ firstDigit w ≤ 8 := by
  constructor
  · intro h
    exact h w rfl
  · rintro h v ⟨⟩
    exact h

/-- The first character of a word is at least the NUL behind an empty one. -/
theorem le_firstDigit (w : Word) : -48 ≤ firstDigit w := by
  rw [firstDigit]
  omega

/-- The place that the PDN selects. -/
theorem inTable_pdp_iff {value : Option Word} :
    InTable ((value.map firstDigit).getD 1 - 1) ↔ Selectable value := by
  unfold InTable
  cases value with
  | none => exact ⟨fun _ => selectable_none, fun _ => by decide⟩
  | some w =>
      rw [selectable_some, Option.map_some, Option.getD_some]
      omega

/-- The place that `-m` selects, or the PDN when there is no `-m`. -/
theorem inTable_muxid_iff {value : Option Word} {pdp muxid : ℤ}
    (hpdp : InTable (pdp - 1))
    (hmuxid : muxid = (value.map fun w => firstDigit w + 0x80).getD 0) :
    InTable (if muxid = 0 then pdp - 1 else muxid - 0x81) ↔ Selectable value := by
  subst hmuxid
  cases value with
  | none => exact ⟨fun _ => selectable_none, fun _ => hpdp⟩
  | some w =>
      -- No word gives the identifier 0, which stands for a command line without `-m`.
      have hne : firstDigit w + 0x80 ≠ 0 := by
        have := le_firstDigit w
        omega
      rw [selectable_some, Option.map_some, Option.getD_some, if_neg hne, InTable]
      omega

/-- **Both functions look at places of the table exactly when QMAP has one channel, or the PDN and
the index on the command line are from 1 to 8.** -/
theorem offsetIds_inTable_iff {argv : List Word} {user : UserInput}
    (h : parseUserInput argv .init = some user) (info : RmnetInfo)
    (qmichannel usbnetAdapter : List Char) :
    (InTable (qmiOffsetId (.start user qmichannel usbnetAdapter) info) ∧
        InTable (mbimOffsetId (.start user qmichannel usbnetAdapter) info)) ↔
      info.qmapMode = 1 ∨
        Selectable (lastValue 'n' (wordsOf argv)) ∧ Selectable (lastValue 'm' (wordsOf argv)) := by
  obtain ⟨hpdp, hmuxid⟩ := parseUserInput_ids h
  by_cases hone : info.qmapMode = 1
  · rw [qmiOffsetId, mbimOffsetId, if_pos hone, if_pos hone]
    exact ⟨fun _ => .inl hone, fun _ => ⟨by decide, by decide⟩⟩
  · rw [qmiOffsetId, mbimOffsetId, if_neg hone, if_neg hone, or_iff_right hone, and_comm]
    have hplace : InTable (user.pdp - 1) ↔ Selectable (lastValue 'n' (wordsOf argv)) := by
      rw [hpdp]
      exact inTable_pdp_iff
    constructor
    · rintro ⟨hn, hm⟩
      exact ⟨hplace.1 hn, (inTable_muxid_iff hn hmuxid).1 hm⟩
    · rintro ⟨hn, hm⟩
      exact ⟨hplace.2 hn, (inTable_muxid_iff (hplace.2 hn) hmuxid).2 hm⟩

/-- A driver with two channels. -/
def twoChannels : RmnetInfo where
  size := 164
  rxUrbSize := 32768
  qmapMode := 2
  qmapVersion := 9
  ifname := fun i => if i = 0 then ['w', '_', '1'] else if i = 1 then ['w', '_', '2'] else []
  muxId := fun i => if i = 0 then 0x81 else if i = 1 then 0x82 else 0

/-- `quectel-CM -n` with a value -/
def withPdn (value : Word) : List Word := [['c', 'm'], ['-', 'n'], value]

/-- What is read of it. -/
def pdnInput (pdp : ℤ) : UserInput := { UserInput.init with pdp := pdp, enableIpv4 := true }

/-- `-n 2` selects the second place. -/
theorem offsetIds_second :
    parseUserInput (withPdn ['2']) .init = some (pdnInput 2) ∧
      InTable (qmiOffsetId (.start (pdnInput 2) [] []) twoChannels) ∧
        InTable (mbimOffsetId (.start (pdnInput 2) [] []) twoChannels) :=
  ⟨by decide, (@offsetIds_inTable_iff (withPdn ['2']) _ (by decide) twoChannels [] []).2
    (.inr ⟨selectable_some.2 (by decide), selectable_none⟩)⟩

/-- `-n 0`, the PDN that the help text gives as the default of MBIM, selects a place in front of the
table. -/
theorem offsetIds_outside : ¬ ∀ (argv : List Word) (user : UserInput) (info : RmnetInfo)
    (qmichannel usbnetAdapter : List Char), parseUserInput argv .init = some user →
      info.size ≠ 0 → info.qmapMode ≠ 0 →
        InTable (qmiOffsetId (.start user qmichannel usbnetAdapter) info) ∧
          InTable (mbimOffsetId (.start user qmichannel usbnetAdapter) info) := by
  intro h
  have hin := h (withPdn ['0']) (pdnInput 0) twoChannels [] [] (by decide) (by decide) (by decide)
  revert hin
  decide

/-! ### The list of identifiers -/

/-- A line of the list: an identifier with two hexadecimal digits, of either case. -/
structure MuxLine where
  hi : Char
  lo : Char
  hi_isDigit : isDigit 16 hi = true
  lo_isDigit : isDigit 16 lo = true

namespace MuxLine

/-- `0x%02x\n` -/
def text (l : MuxLine) : List Char := ['0', 'x', l.hi, l.lo, '\n']

def value (l : MuxLine) : ℕ := CScan.value 16 [l.hi, l.lo]

/-- Neither digit is a letter. -/
def Decimal (l : MuxLine) : Prop := isDigit 10 l.hi = true ∧ isDigit 10 l.lo = true

end MuxLine

/-- `/sys/class/net/%s/qmi/add_mux` -/
def addMuxText (lines : List MuxLine) : List Char := lines.flatMap MuxLine.text

theorem addMuxText_length (lines : List MuxLine) :
    (addMuxText lines).length = 5 * lines.length := by
  induction lines with
  | nil => rfl
  | cons l lines ih =>
      rw [addMuxText, List.flatMap_cons, List.length_append, ← addMuxText, ih, List.length_cons]
      show 5 + _ = _
      omega

/-- The characters of an entry. -/
theorem addMuxText_getElem? {lines : List MuxLine} {k : ℕ} {l : MuxLine}
    (hl : lines[k]? = some l) {j : ℕ} (hj : j < 5) :
    (addMuxText lines)[5 * k + j]? = l.text[j]? := by
  induction lines generalizing k with
  | nil => cases hl
  | cons first lines ih =>
      rw [addMuxText, List.flatMap_cons, ← addMuxText]
      cases k with
      | zero =>
          cases hl
          rw [Nat.mul_zero, Nat.zero_add]
          exact List.getElem?_append_left hj
      | succ k =>
          have hlen : first.text.length = 5 := rfl
          rw [List.getElem?_append_right (by omega), hlen, ← ih hl]
          congr 1
          omega

/-- The value of a digit is at most its distance from `0`; only letters are further away. -/
theorem digitVal_sub {c : Char} (h : isDigit 16 c = true) :
    ∃ v, digitVal c = some v ∧
      (isDigit 10 c = true ∧ c.toNat = v + 48 ∨ ¬ isDigit 10 c = true ∧ v + 48 < c.toNat) := by
  have hle : ∀ d e : Char, d ≤ e → d.toNat ≤ e.toNat := fun _ _ h => h
  rw [isDigit] at h ⊢
  unfold digitVal at h ⊢
  split
  · rename_i hc
    have hlow := hle '0' c hc.1
    have hhigh := hle c '9' hc.2
    simp only [Char.reduceToNat] at hlow hhigh
    refine ⟨_, rfl, .inl ⟨?_, by omega⟩⟩
    rw [Option.any_some, decide_eq_true_iff]
    omega
  · rename_i hdigit
    rw [if_neg hdigit] at h
    split
    · rename_i hc
      have hlow := hle 'a' c hc.1
      simp only [Char.reduceToNat] at hlow
      refine ⟨_, rfl, .inr ⟨?_, by omega⟩⟩
      rw [Option.any_some, decide_eq_true_iff]
      omega
    · rename_i hlower
      rw [if_neg hlower] at h
      split
      · rename_i hc
        have hlow := hle 'A' c hc.1
        simp only [Char.reduceToNat] at hlow
        refine ⟨_, rfl, .inr ⟨?_, by omega⟩⟩
        rw [Option.any_some, decide_eq_true_iff]
        omega
      · rename_i hupper
        rw [if_neg hupper] at h
        cases h

/-- What the arithmetic with `'0'` makes of an entry. -/
def MuxLine.decoded (l : MuxLine) : ℤ :=
  ((l.hi.toNat : ℤ) - 48) * 16 + ((l.lo.toNat : ℤ) - 48)

/-- The arithmetic is right exactly when there are no letters. -/
theorem decoded_eq_value_iff (l : MuxLine) : l.decoded = l.value ↔ l.Decimal := by
  obtain ⟨hi, hhi, hhigh⟩ := digitVal_sub l.hi_isDigit
  obtain ⟨lo, hlo, hlow⟩ := digitVal_sub l.lo_isDigit
  have hvalue : l.value = 16 * hi + lo := by
    simp only [MuxLine.value, CScan.value, List.foldl_cons, List.foldl_nil, hhi, hlo,
      Option.getD_some, Nat.mul_zero, Nat.zero_add]
  rw [MuxLine.decoded, hvalue, MuxLine.Decimal]
  constructor
  · -- A letter makes its digit too large, and nothing makes the other one too small.
    intro h
    rcases hhigh with ⟨hdecimal, hhi⟩ | ⟨-, hhi⟩
    · rcases hlow with ⟨hdecimal', -⟩ | ⟨-, hlo⟩
      · exact ⟨hdecimal, hdecimal'⟩
      · omega
    · rcases hlow with ⟨-, hlo⟩ | ⟨-, hlo⟩
      · omega
      · omega
  · rintro ⟨hdecimal, hdecimal'⟩
    rcases hhigh with ⟨-, hhi⟩ | ⟨hletter, -⟩
    · rcases hlow with ⟨-, hlo⟩ | ⟨hletter, -⟩
      · omega
      · exact absurd hdecimal' hletter
    · exact absurd hdecimal hletter

/-- The characters of an entry, as far as the buffer reaches. -/
theorem muxAt_addMuxText {lines : List MuxLine} {k : ℕ} {l : MuxLine}
    (hl : lines[k]? = some l) :
    muxAt ((addMuxText lines).take 128) k = if k ≤ 24 then some l.decoded else none := by
  have hat : ∀ j : ℕ, j < 5 → k ≤ 24 → bufAt ((addMuxText lines).take 128) (5 * k + j) =
      some ((((l.text[j]?).map Char.toNat).getD 0 : ℕ) : ℤ) := by
    intro j hj hk
    have hindex : (5 * (k : ℤ) + j).toNat = 5 * k + j := by omega
    rw [bufAt, if_pos (by omega), hindex, List.getElem?_take_of_lt (by omega),
      addMuxText_getElem? hl hj]
  rw [muxAt]
  split
  · rename_i hk
    have hhi := hat 2 (by decide) hk
    have hlo := hat 3 (by decide) hk
    push_cast at hhi hlo
    rw [hhi, hlo]
    rfl
  · rename_i hk
    -- Of the 26th entry the first digit is still in the buffer, but not the second.
    have hlo : bufAt ((addMuxText lines).take 128) (5 * (k : ℤ) + 3) = none := by
      rw [bufAt, if_neg (by omega)]
    rw [hlo]
    cases bufAt ((addMuxText lines).take 128) (5 * (k : ℤ) + 2) with
    | none => rfl
    | some hi => rfl

/-- The user has selected the entry `k`, counted from 0, by the PDN or by `-m`. -/
def Selects (user : UserInput) (k : ℕ) : Prop :=
  user.muxid = 0 ∧ user.pdp = k + 1 ∨ user.muxid = 0x81 + k

/-- The upstream driver is in use: the driver tells nothing, it has no parameter, and the channel is
one of `qmi_wwan`. -/
structure UpstreamDriver (sys : QmapSystem) (p : QmapProfile) : Prop where
  silent : sys.rmnetInfo.size = 0
  noFile : findModeFile sys.access (modeFiles (p.setDriver sys.driverName)) = .missing
  qmiwwan : qmidevIsQmiwwan p.qmichannel = true

/-- The positions of the file that are read. -/
def muxReads (p : QmapProfile) (n : ℕ) : List ℤ := [5 * muxIndex p n + 2, 5 * muxIndex p n + 3]

/-- The entry `k` gives the identifier and the interface, and nothing behind the file is read. -/
def SelectsEntry (sys : QmapSystem) (p : QmapProfile) (lines : List MuxLine) (k : ℕ)
    (l : MuxLine) : Prop :=
  ∃ q, qmiQmapModeDetect sys p = some q ∧ q.muxid = l.value ∧ q.qmapnetAdapter = qmimux k ∧
    ∀ i ∈ muxReads p (sys.qlFread (.addMux p.usbnetAdapter) 128).length,
      0 ≤ i ∧ i < (addMuxText lines).length

section Upstream

variable {sys : QmapSystem} {user : UserInput} {qmichannel usbnetAdapter : List Char}

theorem qmapDefaults_ids (sys : QmapSystem) (p : QmapProfile) :
    (qmapDefaults sys p).muxid = p.muxid ∧
      (qmapDefaults sys p).qmapnetAdapter = p.qmapnetAdapter := by
  rw [qmapDefaults]
  split
  · exact ⟨rfl, rfl⟩
  · exact ⟨rfl, rfl⟩

/-- What the function finds with the upstream driver, up to the defaults. -/
theorem qmiQmapModeDetect_upstream {p : QmapProfile} (h : UpstreamDriver sys p) :
    qmiQmapModeDetect sys p =
      (fromAddMux sys (p.setDriver sys.driverName)).map (qmapDefaults sys) := by
  have hqmiwwan : qmidevIsQmiwwan (p.setDriver sys.driverName).qmichannel = true := h.qmiwwan
  rw [qmiQmapModeDetect, qmapOf, if_neg (fun hne => hne h.silent), h.noFile]
  dsimp only
  rw [if_pos hqmiwwan]

/-- What is read of the list, and that it has a first entry. -/
theorem length_qlFread {lines : List MuxLine}
    (hcontent : sys.content (.addMux usbnetAdapter) = addMuxText lines) :
    (sys.qlFread (.addMux usbnetAdapter) 128).length = min 128 (5 * lines.length) := by
  rw [QmapSystem.qlFread, hcontent, List.length_take, addMuxText_length]

/-- The index that the function computes is the selected one. -/
theorem muxIndex_of_selects {k n : ℕ} (hk : k < n) (hsel : Selects user k) :
    muxIndex (.start user qmichannel usbnetAdapter) (min 128 (5 * n)) = k := by
  rw [muxIndex]
  split
  · rename_i hone
    omega
  · show (if user.muxid = 0 then user.pdp - 1 else user.muxid - 0x81) = k
    rcases hsel with ⟨hzero, hpdp⟩ | hmuxid
    · rw [if_pos hzero]
      omega
    · rw [if_neg (by omega)]
      omega

/-- The number in the name of the interface: right with `-m` only when the identifiers of the list
count from 0x81. -/
theorem muxInterface_iff {k n : ℕ} (hk : k < n) (hsel : Selects user k) (muxid : ℤ) :
    muxInterface (.start user qmichannel usbnetAdapter) (min 128 (5 * n)) muxid = k ↔
      user.muxid = 0 ∨ n = 1 ∨ muxid = 0x81 + k := by
  rw [muxInterface]
  split
  · rename_i hone
    omega
  · show (if user.muxid = 0 then user.pdp - 1 else muxid - 0x81) = k ↔ _
    rcases hsel with ⟨hzero, hpdp⟩ | hmuxid
    · rw [if_pos hzero]
      omega
    · rw [if_neg (by omega)]
      omega

theorem qmimux_inj {m n : ℤ} : qmimux m = qmimux n ↔ m = n := by
  rw [qmimux, qmimux, List.append_cancel_left_eq, decInt_inj]

/-- What becomes of the profile when the entry `k` is read. -/
theorem fromAddMux_readable {p : QmapProfile}
    (haccess : sys.access (.qmimux (p.pdp - 1)) = .readable) {lines : List MuxLine}
    (hcontent : sys.content (.addMux p.usbnetAdapter) = addMuxText lines) {k : ℕ} {l : MuxLine}
    (hl : lines[k]? = some l) (hindex : muxIndex p (min 128 (5 * lines.length)) = k) :
    fromAddMux sys p = (if k ≤ 24 then some l.decoded else none).map fun muxid =>
      { p with
        qmapMode := (min 128 (5 * lines.length) : ℕ) / 5
        muxid := muxid
        qmapnetAdapter := qmimux (muxInterface p (min 128 (5 * lines.length)) muxid) } := by
  have hlt : k < lines.length := (List.getElem?_eq_some_iff.1 hl).1
  have hlen := length_qlFread hcontent
  have hmux : muxAt (sys.qlFread (.addMux p.usbnetAdapter) 128) k =
      if k ≤ 24 then some l.decoded else none := by
    rw [QmapSystem.qlFread, hcontent]
    exact muxAt_addMuxText hl
  rw [fromAddMux, if_neg (fun hne => hne haccess)]
  dsimp only
  rw [if_neg (by omega), hlen, hindex, hmux]

/-- **The selected entry decides exactly when its digits are no letters, it lies in the buffer, the
interface of the PDN is there, and, with `-m`, the identifiers count from 0x81.** -/
theorem selectsEntry_iff
    (hdriver : UpstreamDriver sys (.start user qmichannel usbnetAdapter)) {lines : List MuxLine}
    (hcontent : sys.content (.addMux usbnetAdapter) = addMuxText lines) {k : ℕ} {l : MuxLine}
    (hl : lines[k]? = some l) (hsel : Selects user k) :
    SelectsEntry sys (.start user qmichannel usbnetAdapter) lines k l ↔
      sys.access (.qmimux (user.pdp - 1)) = .readable ∧ k ≤ 24 ∧ l.Decimal ∧
        (user.muxid = 0 ∨ lines.length = 1 ∨ (l.value : ℤ) = 0x81 + k) := by
  have hlt : k < lines.length := (List.getElem?_eq_some_iff.1 hl).1
  have hindex := @muxIndex_of_selects user qmichannel usbnetAdapter k lines.length hlt hsel
  have hinterface := @muxInterface_iff user qmichannel usbnetAdapter k lines.length hlt hsel
  have hread : (sys.qlFread (.addMux (QmapProfile.start user qmichannel
      usbnetAdapter).usbnetAdapter) 128).length = min 128 (5 * lines.length) :=
    length_qlFread hcontent
  rw [SelectsEntry, qmiQmapModeDetect_upstream hdriver]
  constructor
  · rintro ⟨q, hq, hmuxid, hadapter, -⟩
    obtain ⟨r, hr, rfl⟩ := Option.map_eq_some_iff.1 hq
    rw [(qmapDefaults_ids sys r).1] at hmuxid
    rw [(qmapDefaults_ids sys r).2] at hadapter
    by_cases haccess : sys.access (.qmimux (user.pdp - 1)) = .readable
    · rw [@fromAddMux_readable sys (.setDriver (.start user qmichannel usbnetAdapter) _) haccess
        lines hcontent k l hl hindex] at hr
      obtain ⟨muxid, hmux, rfl⟩ := Option.map_eq_some_iff.1 hr
      by_cases hk : k ≤ 24
      · rw [if_pos hk] at hmux
        cases hmux
        have hvalue : l.decoded = l.value := hmuxid
        have hnumber := (hinterface l.decoded).1 (qmimux_inj.1 hadapter)
        rw [hvalue] at hnumber
        exact ⟨haccess, hk, (decoded_eq_value_iff l).1 hvalue, hnumber⟩
      · rw [if_neg hk] at hmux
        cases hmux
    · -- Without the interface the profile keeps the adapter of its start, which has no name.
      have hsame : fromAddMux sys ((QmapProfile.start user qmichannel usbnetAdapter).setDriver
          sys.driverName) = some _ := if_pos haccess
      rw [hsame] at hr
      cases hr
      cases hadapter
  · rintro ⟨haccess, hk, hdecimal, hnumber⟩
    have hvalue := (decoded_eq_value_iff l).2 hdecimal
    rw [@fromAddMux_readable sys (.setDriver (.start user qmichannel usbnetAdapter) _) haccess
      lines hcontent k l hl hindex, if_pos hk]
    refine ⟨_, rfl, ?_, ?_, ?_⟩
    · rw [(qmapDefaults_ids sys _).1]
      exact hvalue
    · rw [(qmapDefaults_ids sys _).2]
      refine qmimux_inj.2 ((hinterface l.decoded).2 ?_)
      rwa [hvalue]
    · rw [hread, muxReads, hindex, addMuxText_length]
      intro i hi
      rcases List.mem_cons.1 hi with rfl | hi
      · omega
      · rw [List.mem_singleton.1 hi]
        omega

end Upstream

/-- A system with the upstream driver, the interfaces `qmimux0` and `qmimux1`, and a list. -/
def upstream (lines : List MuxLine) : QmapSystem where
  driverName := []
  rmnetInfo :=
    { size := 0, rxUrbSize := 0, qmapMode := 0, qmapVersion := 0, ifname := fun _ => []
      muxId := fun _ => 0 }
  access := fun file =>
    if file = .qmimux 0 ∨ file = .qmimux 1 then .readable else .missing
  content := fun file => if file = .addMux ['w'] then addMuxText lines else []

/-- `/dev/cdc-wdm0` -/
def cdcWdm : List Char := "/dev/cdc-wdm0".toList

theorem upstream_upstreamDriver (lines : List MuxLine) (user : UserInput) :
    UpstreamDriver (upstream lines) (.start user cdcWdm ['w']) where
  silent := rfl
  noFile := rfl
  qmiwwan := show qmidevIsQmiwwan cdcWdm = true by decide

def muxLine81 : MuxLine := ⟨'8', '1', by decide, by decide⟩

def muxLine82 : MuxLine := ⟨'8', '2', by decide, by decide⟩

def muxLine22 : MuxLine := ⟨'2', '2', by decide, by decide⟩

/-- With 0x81 and 0x82 in the list, the second PDN is found. -/
theorem selectsEntry_second :
    SelectsEntry (upstream [muxLine81, muxLine82]) (.start (pdnInput 2) cdcWdm ['w'])
      [muxLine81, muxLine82] 1 muxLine82 :=
  (selectsEntry_iff (upstream_upstreamDriver _ _) rfl rfl (.inl ⟨rfl, rfl⟩)).2
    ⟨rfl, by decide, ⟨by decide, by decide⟩, .inl rfl⟩

/-- `-m 2` -/
def secondIndex : UserInput := { UserInput.init with pdp := 1, muxid := 0x82, enableIpv4 := true }

/-- With 0x81 and 0x22 in the list, `-m 2` gives the interface `qmimux-95`. -/
theorem not_selectsEntry : ¬ ∀ (sys : QmapSystem) (user : UserInput)
    (qmichannel usbnetAdapter : List Char) (lines : List MuxLine) (k : ℕ) (l : MuxLine),
    UpstreamDriver sys (.start user qmichannel usbnetAdapter) →
      sys.content (.addMux usbnetAdapter) = addMuxText lines → lines[k]? = some l →
        Selects user k → sys.access (.qmimux (user.pdp - 1)) = .readable →
          SelectsEntry sys (.start user qmichannel usbnetAdapter) lines k l := by
  intro h
  obtain ⟨q, hq, -, hadapter, -⟩ := h (upstream [muxLine81, muxLine22]) secondIndex cdcWdm ['w']
    [muxLine81, muxLine22] 1 muxLine22 (upstream_upstreamDriver _ _) rfl rfl (.inr rfl) rfl
  cases hq
  revert hadapter
  decide

end QuectelCM

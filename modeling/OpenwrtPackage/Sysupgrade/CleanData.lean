/-
**sysupgrade and the data it wipes.**

`sysupgrade` reads its options, checks that they make sense together, runs `clean_data.sh`, and
only then looks at what it was called for: a list, a backup, a restore, a test or an upgrade.  So
the data are gone whenever the options make sense.

* `Sysupgrade.parseOptions` — the options;
* `Sysupgrade.World` — how the checks and commands behind them come out;
* `Sysupgrade.sysupgrade` — the run of the script;
* `Sysupgrade.Lawful` — data are only wiped by an upgrade, and an archive on stdout is alone there;
* `Sysupgrade.sysupgrade_lawful_iff` — **the runs that are lawful**.
-/
import Mathlib.Data.Int.Notation
import Mathlib.Order.Nat
import OpenwrtPackage.Lib.Script

set_option relaxedAutoImplicit false
set_option autoImplicit false

namespace Sysupgrade

open Script

/-! ### Options -/

/-- A word of the command line. -/
abbrev Word := List Char

/-- The variables that the options set. -/
structure Options where
  interactive : Bool
  verbose : ℤ
  saveConfig : Bool
  saveOverlay : Bool
  saveOverlayPath : Word
  savePartitions : Bool
  saveInstalledPkgs : Bool
  skipUnchanged : Bool
  confImage : Word
  confBackupList : Bool
  confBackup : Word
  confRestore : Word
  ignoreMinorCompat : Bool
  needImage : Bool
  help : Bool
  force : Bool
  test : Bool
  deriving DecidableEq

/-- `initialize defaults` -/
def Options.default : Options where
  interactive := false
  verbose := 1
  saveConfig := true
  saveOverlay := false
  saveOverlayPath := []
  savePartitions := true
  saveInstalledPkgs := false
  skipUnchanged := false
  confImage := []
  confBackupList := false
  confBackup := []
  confRestore := []
  ignoreMinorCompat := false
  needImage := false
  help := false
  force := false
  test := false

/-- What a word is to the loop that reads the options. -/
inductive OptionKind where
  /-- an option without a value -/
  | flag (set : Options → Options)
  /-- an option with a value -/
  | value (set : Word → Options → Options)
  /-- `-h`, which ends the loop -/
  | help
  /-- any other word that begins with `-` -/
  | invalid
  /-- a word that ends the loop -/
  | image

/-- `case "$1" in` -/
def optionKind (w : Word) : OptionKind :=
  if w = "-i".toList then .flag fun o => { o with interactive := true }
  else if w = "-v".toList then .flag fun o => { o with verbose := o.verbose + 1 }
  else if w = "-q".toList then .flag fun o => { o with verbose := o.verbose - 1 }
  else if w = "-n".toList then .flag fun o => { o with saveConfig := false }
  else if w = "-c".toList then
    .flag fun o => { o with saveOverlay := true, saveOverlayPath := "/etc".toList }
  else if w = "-o".toList then
    .flag fun o => { o with saveOverlay := true, saveOverlayPath := "/".toList }
  else if w = "-p".toList then .flag fun o => { o with savePartitions := false }
  else if w = "-k".toList then .flag fun o => { o with saveInstalledPkgs := true }
  else if w = "-u".toList then .flag fun o => { o with skipUnchanged := true }
  else if w = "-b".toList ∨ w = "--create-backup".toList then
    .value fun v o => { o with confBackup := v, needImage := true }
  else if w = "-r".toList ∨ w = "--restore-backup".toList then
    .value fun v o => { o with confRestore := v, needImage := true }
  else if w = "-l".toList ∨ w = "--list-backup".toList then
    .flag fun o => { o with confBackupList := true }
  else if w = "-f".toList then .value fun v o => { o with confImage := v }
  else if w = "-F".toList ∨ w = "--force".toList then .flag fun o => { o with force := true }
  else if w = "-T".toList ∨ w = "--test".toList then .flag fun o => { o with test := true }
  else if w = "-h".toList ∨ w = "--help".toList then .help
  else if w = "--ignore-minor-compat-version".toList then
    .flag fun o => { o with ignoreMinorCompat := true }
  else if w.head? = some '-' then .invalid
  else .image

/-- `while [ -n "$1" ]`: the options and the words left, or `none` for an invalid option.  A value
that is missing is empty, and `shift` does nothing when no word is left. -/
def parseOptions (o : Options) : List Word → Option (Options × List Word)
  | [] => some (o, [])
  | w :: rest =>
      if w = [] then some (o, w :: rest)
      else match optionKind w with
        | .flag set => parseOptions (set o) rest
        | .value set =>
            match rest with
            | [] => some (set [] o, [])
            | v :: rest => parseOptions (set v o) rest
        | .help => some ({ o with help := true }, w :: rest)
        | .invalid => none
        | .image => some (o, w :: rest)

/-! ### The run -/

/-- What is written to stdout. -/
inductive Output where
  | usage
  | noImageWithBackup
  | psqlMissing
  | psqlOutput
  | truncateFailed
  | truncateDone
  | romRequired
  | fileNames
  | backupFailed
  | checkFailed
  | archive
  deriving DecidableEq, Repr

/-- What a run does that matters here. -/
inductive Event where
  /-- `clean_data.sh` is run -/
  | cleanData
  | stdout (text : Output)
  /-- `v` says something -/
  | message
  /-- stage 2 takes over -/
  | handOver
  deriving DecidableEq, Repr

/-- How `psql` comes out in `clean_data.sh`. -/
inductive Psql where
  | missing
  | failed
  | done
  deriving DecidableEq

/-- How the checks and commands of a run come out. -/
structure World where
  psql : Psql
  /-- `[ -d /overlay/upper/etc ]` -/
  overlayUpperEtc : Bool
  /-- `[ -d /rom/ ]` -/
  romDir : Bool
  /-- `rootfs_type` is `tmpfs` -/
  rootfsTmpfs : Bool
  /-- `ask_bool 0 "Abort"` -/
  askAbort : Bool
  /-- `ask_bool $SAVE_CONFIG "Keep config files over reflash"` -/
  askKeepConfig : Bool → Bool
  mountOk : Bool
  tarOk : Bool
  /-- `[ -f file ]` -/
  isFile : Word → Bool
  /-- the status of `tar -C / -x…` -/
  restoreStatus : ℕ
  /-- `type platform_check_image` -/
  platformCheckImage : Bool
  wgetOk : Bool
  /-- `readlink -f` -/
  readlink : Word → Word
  /-- `json_load` of what `validate_firmware_image` says -/
  jsonLoad : Bool
  /-- the number in `valid`, if it is one -/
  valid : Option ℤ
  /-- `get_magic_word $CONF_IMAGE cat` -/
  magicWord : Word

/-- `v`, which says nothing when `VERBOSE` is 0. -/
def v (o : Options) : Run Event := if 1 ≤ o.verbose then emit [.message] else skip

/-- What `clean_data.sh` writes. -/
def Psql.output : Psql → List Event
  | .missing => [.stdout .psqlMissing]
  | .failed => [.stdout .psqlOutput, .stdout .truncateFailed]
  | .done => [.stdout .psqlOutput, .stdout .truncateDone]

/-- `IMAGE="$1"` -/
def image (rest : List Word) : Word := rest.headD []

/-- The two tests behind the options. -/
def checkUsage (o : Options) (image : Word) : Run Event :=
  runAll [
    exitIf (image = [] ∧ o.needImage = false ∧ o.confBackupList = false ∨ o.help = true)
      [.stdout .usage] 1,
    exitIf (image ≠ [] ∧ o.needImage = true) [.stdout .noImageWithBackup] 1]

/-- `[ "$CONF_BACKUP" = "-" ] && export VERBOSE=0` -/
def quiet (o : Options) : Options :=
  if o.confBackup = ['-'] then { o with verbose := 0 } else o

/-- `clean_data.sh` with the two messages around it. -/
def cleanData (o : Options) (w : World) : Run Event :=
  runAll [v o, emit (.cleanData :: w.psql.output), v o]

/-- What `tar` says about the files it handles. -/
def tarNames (o : Options) : Run Event :=
  if 1 < o.verbose then emit [.stdout .fileNames] else skip

/-- `do_save_conffiles` -/
def doSaveConffiles (o : Options) (w : World) (confTar : Word) : Run Event :=
  if w.rootfsTmpfs then exitIf (w.askAbort = true) [] 0
  else runAll [
    exitIf (o.saveInstalledPkgs = true ∧ w.mountOk = false ∧ w.askAbort = true) [] 0,
    v o,
    tarNames o,
    exitIf (w.tarOk = false) [.stdout .backupFailed] 1,
    if confTar = ['-'] then emit [.stdout .archive] else skip]

/-- What `-c`, `-o` and `-u` need. -/
def checkOverlay (o : Options) (w : World) : Run Event :=
  runAll [
    exitIf (o.saveOverlay = true ∧ w.overlayUpperEtc = false) [] 1,
    exitIf (o.skipUnchanged = true ∧ w.romDir = false) [.stdout .romRequired] 1]

/-- The modes that exit: list, backup and restore. -/
def backupModes (o : Options) (w : World) : Run Event :=
  runAll [
    exitIf (o.confBackupList = true) [.stdout .fileNames] 0,
    if o.confBackup ≠ [] then (doSaveConffiles o w o.confBackup).seq (exitWith [] 0) else skip,
    if o.confRestore ≠ [] then
      runAll [
        exitIf (o.confRestore ≠ ['-'] ∧ w.isFile o.confRestore = false) [] 1,
        v o, tarNames o, exitWith [] w.restoreStatus]
    else skip]

/-- `http://*` and `https://*` -/
def isUrl (image : Word) : Bool :=
  "http://".toList.isPrefixOf image || "https://".toList.isPrefixOf image

/-- The image as it is named behind the download. -/
def downloaded (image : Word) : Word :=
  if isUrl image then "/tmp/sysupgrade.img".toList else image

/-- The image is fetched, found, copied and validated. -/
def checkImage (o : Options) (image : Word) (w : World) : Run Event :=
  runAll [
    exitIf (w.platformCheckImage = false) [] 1,
    exitIf (isUrl image = true ∧ w.wgetOk = false) [] 1,
    exitIf (w.readlink (downloaded image) = []) [] 1,
    if "/tmp/".toList.isPrefixOf (w.readlink (downloaded image)) then skip else v o,
    exitIf (w.jsonLoad = false) [.stdout .checkFailed] 1,
    exitIf (w.valid = some 0 ∧ o.force = false) [] 1]

/-- The configuration that is kept. -/
def keepConfig (o : Options) (w : World) : Run Event :=
  if o.confImage ≠ [] then exitIf (w.magicWord ≠ "1f8b".toList) [] 1
  else if w.askKeepConfig o.saveConfig = true then
    if o.test then skip else doSaveConffiles o w "/tmp/sysupgrade.tgz".toList
  else skip

/-- The script behind `clean_data.sh`. -/
def upgrade (o : Options) (image : Word) (w : World) : Run Event :=
  runAll [
    checkOverlay o w,
    backupModes o w,
    checkImage o image w,
    keepConfig o w,
    exitIf (o.test = true) [] 0,
    v o,
    emit [.handOver]]

/-- `sysupgrade` with these words. -/
def sysupgrade (args : List Word) (w : World) : Run Event :=
  match parseOptions .default args with
  | none => exitWith [] 1
  | some (o, rest) =>
      runAll [
        checkUsage o (image rest),
        cleanData (quiet o) w,
        upgrade (quiet o) (image rest) w]

/-! ### The law -/

/-- Data are wiped by an upgrade only, and `-b -` writes the archive and nothing else. -/
structure Lawful (args : List Word) (w : World) : Prop where
  clean : .cleanData ∈ (sysupgrade args w).events → .handOver ∈ (sysupgrade args w).events
  stdout : ∀ o rest, parseOptions .default args = some (o, rest) → o.confBackup = ['-'] →
    ∀ e ∈ (sysupgrade args w).events, (∃ text, e = .stdout text) → e = .stdout .archive

/-- The options end the script before anything is done. -/
def StopsEarly (o : Options) (image : Word) : Prop :=
  (image = [] ∧ o.needImage = false ∧ o.confBackupList = false ∨ o.help = true) ∨
    (image ≠ [] ∧ o.needImage = true)

/-- `do_save_conffiles` comes to its end. -/
def SavesConffiles (o : Options) (w : World) : Prop :=
  if w.rootfsTmpfs then w.askAbort = false
  else ¬ (o.saveInstalledPkgs = true ∧ w.mountOk = false ∧ w.askAbort = true) ∧ w.tarOk = true

/-- The options ask for an upgrade, and every check on the way to stage 2 is passed. -/
structure Upgrades (o : Options) (image : Word) (w : World) : Prop where
  options : ¬ StopsEarly o image
  overlay : o.saveOverlay = true → w.overlayUpperEtc = true
  rom : o.skipUnchanged = true → w.romDir = true
  list : o.confBackupList = false
  backup : o.confBackup = []
  restore : o.confRestore = []
  platform : w.platformCheckImage = true
  download : isUrl image = true → w.wgetOk = true
  found : w.readlink (downloaded image) ≠ []
  checked : w.jsonLoad = true
  valid : w.valid = some 0 → o.force = true
  config : o.confImage ≠ [] → w.magicWord = "1f8b".toList
  saved : o.confImage = [] → w.askKeepConfig o.saveConfig = true → SavesConffiles o w
  flashed : o.test = false

/-- What the arguments and the outcome of the checks must be like. -/
def Harmless (args : List Word) (w : World) : Prop :=
  match parseOptions .default args with
  | none => True
  | some (o, rest) =>
      StopsEarly o (image rest) ∧ o.confBackup ≠ ['-'] ∨ Upgrades o (image rest) w

/-! ### Which commands exit -/

theorem quiet_eq (o : Options) : ∃ n, quiet o = { o with verbose := n } := by
  rw [quiet]
  split
  · exact ⟨0, rfl⟩
  · exact ⟨o.verbose, rfl⟩

@[simp] theorem v_exit (o : Options) : (v o).exit = none := by
  rw [v]; split <;> rfl

@[simp] theorem tarNames_exit (o : Options) : (tarNames o).exit = none := by
  rw [tarNames]; split <;> rfl

theorem checkUsage_exit (o : Options) (image : Word) :
    (checkUsage o image).exit = none ↔ ¬ StopsEarly o image := by
  simp only [checkUsage, runAll_cons, runAll_nil, exit_seq, exit_exitIf, skip_exit, and_true,
    StopsEarly, not_or]

@[simp] theorem cleanData_exit (o : Options) (w : World) : (cleanData o w).exit = none := by
  simp [cleanData]

theorem doSaveConffiles_exit (o : Options) (w : World) (confTar : Word) :
    (doSaveConffiles o w confTar).exit = none ↔ SavesConffiles o w := by
  rw [doSaveConffiles, SavesConffiles]
  split
  · simp
  · have hlast : (if confTar = ['-'] then emit [Event.stdout .archive] else skip).exit = none := by
      split <;> rfl
    simp [hlast]

theorem checkOverlay_exit (o : Options) (w : World) :
    (checkOverlay o w).exit = none ↔ (o.saveOverlay = true → w.overlayUpperEtc = true) ∧
      (o.skipUnchanged = true → w.romDir = true) := by
  simp [checkOverlay]

theorem backupModes_exit (o : Options) (w : World) :
    (backupModes o w).exit = none ↔
      o.confBackupList = false ∧ o.confBackup = [] ∧ o.confRestore = [] := by
  by_cases hbackup : o.confBackup = [] <;> by_cases hrestore : o.confRestore = [] <;>
    simp [backupModes, hbackup, hrestore]

theorem checkImage_exit (o : Options) (image : Word) (w : World) :
    (checkImage o image w).exit = none ↔ w.platformCheckImage = true ∧
      (isUrl image = true → w.wgetOk = true) ∧ w.readlink (downloaded image) ≠ [] ∧
      w.jsonLoad = true ∧ (w.valid = some 0 → o.force = true) := by
  have hcopy : (if "/tmp/".toList.isPrefixOf (w.readlink (downloaded image)) then skip
      else v o).exit = none := by
    split
    · rfl
    · exact v_exit o
  rw [checkImage]
  simp only [runAll_cons, runAll_nil, exit_seq, exit_exitIf, hcopy, skip_exit, and_true, true_and]
  simp

theorem keepConfig_exit (o : Options) (w : World) (htest : o.test = false) :
    (keepConfig o w).exit = none ↔ (o.confImage ≠ [] → w.magicWord = "1f8b".toList) ∧
      (o.confImage = [] → w.askKeepConfig o.saveConfig = true → SavesConffiles o w) := by
  rw [keepConfig]
  by_cases himage : o.confImage = []
  · by_cases hask : w.askKeepConfig o.saveConfig = true
    · simp [himage, hask, htest, doSaveConffiles_exit]
    · simp [himage, hask]
  · simp [himage]

/-! ### What commands do -/

/-- A piece of the script that neither wipes data nor hands over. -/
def OnlyTalks (r : Run Event) : Prop := ∀ e ∈ r.events, e ≠ .cleanData ∧ e ≠ .handOver

theorem onlyTalks_skip : OnlyTalks skip := fun _ h => absurd h List.not_mem_nil

theorem onlyTalks_exitIf (c : Prop) [Decidable c] {es : List Event} (status : ℕ)
    (h : ∀ e ∈ es, e ≠ .cleanData ∧ e ≠ .handOver) : OnlyTalks (exitIf c es status) :=
  fun e he => h e ((mem_exitIf c es status e).1 he).2

theorem onlyTalks_ite {c : Prop} [Decidable c] {a b : Run Event} (ha : OnlyTalks a)
    (hb : OnlyTalks b) : OnlyTalks (if c then a else b) := by
  split
  · exact ha
  · exact hb

theorem onlyTalks_seq {a b : Run Event} (ha : OnlyTalks a) (hb : OnlyTalks b) :
    OnlyTalks (a.seq b) := by
  intro e he
  obtain he | ⟨-, he⟩ := (mem_seq a b e).1 he
  · exact ha e he
  · exact hb e he

theorem onlyTalks_runAll {rs : List (Run Event)} (h : ∀ r ∈ rs, OnlyTalks r) :
    OnlyTalks (runAll rs) := by
  induction rs with
  | nil => exact onlyTalks_skip
  | cons r rs ih =>
      have hrs := ih fun r' hr' => h r' (List.mem_cons_of_mem _ hr')
      exact onlyTalks_seq (h r (List.mem_cons_self ..)) hrs

theorem onlyTalks_emit {es : List Event} (h : ∀ e ∈ es, e ≠ .cleanData ∧ e ≠ .handOver) :
    OnlyTalks (emit es) := h

theorem onlyTalks_v (o : Options) : OnlyTalks (v o) :=
  onlyTalks_ite (onlyTalks_emit (by decide)) onlyTalks_skip

theorem onlyTalks_tarNames (o : Options) : OnlyTalks (tarNames o) :=
  onlyTalks_ite (onlyTalks_emit (by decide)) onlyTalks_skip

theorem onlyTalks_checkUsage (o : Options) (image : Word) : OnlyTalks (checkUsage o image) := by
  refine onlyTalks_runAll ?_
  simp only [List.forall_mem_cons, List.not_mem_nil, false_imp_iff, implies_true, and_true]
  exact ⟨onlyTalks_exitIf _ _ (by decide), onlyTalks_exitIf _ _ (by decide)⟩

theorem onlyTalks_doSaveConffiles (o : Options) (w : World) (confTar : Word) :
    OnlyTalks (doSaveConffiles o w confTar) := by
  refine onlyTalks_ite (onlyTalks_exitIf _ _ (by decide)) (onlyTalks_runAll ?_)
  simp only [List.forall_mem_cons, List.not_mem_nil, false_imp_iff, implies_true, and_true]
  exact ⟨onlyTalks_exitIf _ _ (by decide), onlyTalks_v o, onlyTalks_tarNames o,
    onlyTalks_exitIf _ _ (by decide), onlyTalks_ite (onlyTalks_emit (by decide)) onlyTalks_skip⟩

theorem onlyTalks_checkOverlay (o : Options) (w : World) : OnlyTalks (checkOverlay o w) := by
  refine onlyTalks_runAll ?_
  simp only [List.forall_mem_cons, List.not_mem_nil, false_imp_iff, implies_true, and_true]
  exact ⟨onlyTalks_exitIf _ _ (by decide), onlyTalks_exitIf _ _ (by decide)⟩

theorem onlyTalks_exitWith (status : ℕ) : OnlyTalks (exitWith [] status) :=
  fun _ h => absurd h List.not_mem_nil

theorem onlyTalks_backupModes (o : Options) (w : World) : OnlyTalks (backupModes o w) := by
  have hrestore : ∀ r ∈ [exitIf (o.confRestore ≠ ['-'] ∧ w.isFile o.confRestore = false) [] 1,
      v o, tarNames o, exitWith [] w.restoreStatus], OnlyTalks r := by
    simp only [List.forall_mem_cons, List.not_mem_nil, false_imp_iff, implies_true, and_true]
    exact ⟨onlyTalks_exitIf _ _ (by decide), onlyTalks_v o, onlyTalks_tarNames o,
      onlyTalks_exitWith _⟩
  refine onlyTalks_runAll ?_
  simp only [List.forall_mem_cons, List.not_mem_nil, false_imp_iff, implies_true, and_true]
  exact ⟨onlyTalks_exitIf _ _ (by decide),
    onlyTalks_ite (onlyTalks_seq (onlyTalks_doSaveConffiles _ _ _) (onlyTalks_exitWith _))
      onlyTalks_skip,
    onlyTalks_ite (onlyTalks_runAll hrestore) onlyTalks_skip⟩

theorem onlyTalks_checkImage (o : Options) (image : Word) (w : World) :
    OnlyTalks (checkImage o image w) := by
  refine onlyTalks_runAll ?_
  simp only [List.forall_mem_cons, List.not_mem_nil, false_imp_iff, implies_true, and_true]
  exact ⟨onlyTalks_exitIf _ _ (by decide), onlyTalks_exitIf _ _ (by decide),
    onlyTalks_exitIf _ _ (by decide), onlyTalks_ite onlyTalks_skip (onlyTalks_v o),
    onlyTalks_exitIf _ _ (by decide), onlyTalks_exitIf _ _ (by decide)⟩

theorem onlyTalks_keepConfig (o : Options) (w : World) : OnlyTalks (keepConfig o w) :=
  onlyTalks_ite (onlyTalks_exitIf _ _ (by decide))
    (onlyTalks_ite (onlyTalks_ite onlyTalks_skip (onlyTalks_doSaveConffiles _ _ _)) onlyTalks_skip)

/-! ### Runs -/

/-- The script behind `clean_data.sh` hands over when every check is passed. -/
theorem handOver_mem_upgrade (o : Options) (image : Word) (w : World)
    (hoptions : ¬ StopsEarly o image) :
    .handOver ∈ (upgrade o image w).events ↔ Upgrades o image w := by
  -- No check hands over by itself, so the event comes from the last line of the script, which is
  -- reached when every line above it goes on.
  have htalk : ∀ r ∈ [checkOverlay o w, backupModes o w, checkImage o image w, keepConfig o w,
      exitIf (o.test = true) [] 0, v o], Event.handOver ∉ r.events := by
    simp only [List.forall_mem_cons, List.not_mem_nil, false_imp_iff, implies_true, and_true]
    exact ⟨fun h => (onlyTalks_checkOverlay o w _ h).2 rfl,
      fun h => (onlyTalks_backupModes o w _ h).2 rfl,
      fun h => (onlyTalks_checkImage o image w _ h).2 rfl,
      fun h => (onlyTalks_keepConfig o w _ h).2 rfl, by simp,
      fun h => (onlyTalks_v o _ h).2 rfl⟩
  have hrow := @mem_runAll_append_last _ _ (emit [Event.handOver]) _ htalk
  rw [List.cons_append, List.cons_append, List.cons_append, List.cons_append, List.cons_append,
    List.cons_append, List.nil_append] at hrow
  rw [upgrade, hrow]
  simp only [List.forall_mem_cons, and_true, checkOverlay_exit, backupModes_exit,
    checkImage_exit, exit_exitIf, v_exit, emit_events, List.mem_singleton, forall_eq,
    Bool.not_eq_true]
  constructor
  · rintro ⟨⟨hoverlay, hrom⟩, ⟨hlist, hbackup, hrestore⟩,
      ⟨hplatform, hdownload, hfound, hchecked, hvalid⟩, hkeep, htest⟩
    obtain ⟨hconfig, hsaved⟩ := (keepConfig_exit o w htest).1 hkeep
    exact ⟨hoptions, hoverlay, hrom, hlist, hbackup, hrestore, hplatform, hdownload, hfound,
      hchecked, hvalid, hconfig, hsaved, htest⟩
  · intro h
    exact ⟨⟨h.overlay, h.rom⟩, ⟨h.list, h.backup, h.restore⟩,
      ⟨h.platform, h.download, h.found, h.checked, h.valid⟩,
      (keepConfig_exit o w h.flashed).2 ⟨h.config, h.saved⟩, h.flashed⟩

/-- How verbose the script is does not matter for where it gets. -/
theorem upgrades_quiet (o : Options) (image : Word) (w : World) :
    Upgrades (quiet o) image w ↔ Upgrades o image w := by
  obtain ⟨n, hn⟩ := quiet_eq o
  rw [hn]
  exact ⟨fun h => ⟨h.options, h.overlay, h.rom, h.list, h.backup, h.restore, h.platform,
      h.download, h.found, h.checked, h.valid, h.config, h.saved, h.flashed⟩,
    fun h => ⟨h.options, h.overlay, h.rom, h.list, h.backup, h.restore, h.platform,
      h.download, h.found, h.checked, h.valid, h.config, h.saved, h.flashed⟩⟩

theorem stopsEarly_quiet (o : Options) (image : Word) :
    StopsEarly (quiet o) image ↔ StopsEarly o image := by
  obtain ⟨n, hn⟩ := quiet_eq o
  rw [hn]
  exact Iff.rfl

/-- Data are wiped as soon as the options make sense. -/
theorem cleanData_mem {args : List Word} {o : Options} {rest : List Word}
    (h : parseOptions .default args = some (o, rest)) (w : World) :
    .cleanData ∈ (sysupgrade args w).events ↔ ¬ StopsEarly o (image rest) := by
  rw [sysupgrade, h]
  simp only [runAll_cons, runAll_nil, mem_seq, cleanData_exit, checkUsage_exit, true_and]
  constructor
  · rintro (hmem | ⟨hearly, -⟩)
    · exact absurd rfl (onlyTalks_checkUsage _ _ _ hmem).1
    · exact hearly
  · intro hearly
    refine Or.inr ⟨hearly, Or.inl ?_⟩
    simp [cleanData]

theorem psql_output_ne (p : Psql) : .handOver ∉ p.output := by
  cases p <;> decide

theorem handOver_mem {args : List Word} {o : Options} {rest : List Word}
    (h : parseOptions .default args = some (o, rest)) (w : World) :
    .handOver ∈ (sysupgrade args w).events ↔ Upgrades o (image rest) w := by
  have hclean : Event.handOver ∉ (cleanData (quiet o) w).events := by
    have hv : Event.handOver ∉ (v (quiet o)).events := fun hmem => (onlyTalks_v _ _ hmem).2 rfl
    simp [cleanData, hv, psql_output_ne]
  rw [sysupgrade, h]
  simp only [runAll_cons, runAll_nil, mem_seq, cleanData_exit, checkUsage_exit, true_and, hclean,
    false_or, skip_events, List.not_mem_nil, and_false, or_false]
  constructor
  · rintro (hmem | ⟨hearly, hmem⟩)
    · exact absurd rfl (onlyTalks_checkUsage _ _ _ hmem).2
    · have hquiet : ¬ StopsEarly (quiet o) (image rest) := fun hs =>
        hearly ((stopsEarly_quiet o _).1 hs)
      exact (upgrades_quiet o _ w).1 ((handOver_mem_upgrade _ _ w hquiet).1 hmem)
  · intro hupgrades
    have hquiet := (upgrades_quiet o _ w).2 hupgrades
    exact Or.inr ⟨hupgrades.options, (handOver_mem_upgrade _ _ w hquiet.options).2 hquiet⟩

/-- When the options end the script, it has said something else than an archive on stdout. -/
theorem stdout_of_stopsEarly {args : List Word} {o : Options} {rest : List Word}
    (h : parseOptions .default args = some (o, rest)) (w : World)
    (hearly : StopsEarly o (image rest)) :
    .stdout .usage ∈ (sysupgrade args w).events ∨
      .stdout .noImageWithBackup ∈ (sysupgrade args w).events := by
  rw [sysupgrade, h]
  simp only [runAll_cons, runAll_nil, mem_seq, checkUsage, exit_seq, exit_exitIf, mem_exitIf]
  by_cases husage : image rest = [] ∧ o.needImage = false ∧ o.confBackupList = false ∨
      o.help = true
  · exact Or.inl (Or.inl (Or.inl ⟨husage, List.mem_singleton_self _⟩))
  · obtain hboth := hearly.resolve_left husage
    exact Or.inr (Or.inl (Or.inr ⟨husage, Or.inl ⟨hboth, List.mem_singleton_self _⟩⟩))

/-- A run is lawful exactly when an option is invalid, the options end it without an archive for
stdout, or it is an upgrade that reaches stage 2. -/
theorem sysupgrade_lawful_iff (args : List Word) (w : World) :
    Lawful args w ↔ Harmless args w := by
  rw [Harmless]
  cases hparse : parseOptions .default args with
  | none =>
      refine iff_of_true ⟨?_, ?_⟩ trivial
      · intro hmem
        rw [sysupgrade, hparse] at hmem
        cases hmem
      · intro o rest h
        rw [hparse] at h
        cases h
  | some parsed =>
      obtain ⟨o, rest⟩ := parsed
      show Lawful args w ↔ _
      constructor
      · rintro ⟨hclean, hstdout⟩
        -- The data are wiped right behind the check of the options: past it a run is lawful only
        -- when it gets to stage 2.
        by_cases hearly : StopsEarly o (image rest)
        · refine Or.inl ⟨hearly, fun hbackup => ?_⟩
          have hall := hstdout o rest hparse hbackup
          obtain hmem | hmem := stdout_of_stopsEarly hparse w hearly
          · exact absurd (hall _ hmem ⟨_, rfl⟩) (by decide)
          · exact absurd (hall _ hmem ⟨_, rfl⟩) (by decide)
        · have hhand := hclean ((cleanData_mem hparse w).2 hearly)
          exact Or.inr ((handOver_mem hparse w).1 hhand)
      · rintro (⟨hearly, hbackup⟩ | hupgrades)
        · refine ⟨fun hmem => absurd hearly ((cleanData_mem hparse w).1 hmem), ?_⟩
          intro o' rest' h hdash
          rw [hparse] at h
          cases h
          exact absurd hdash hbackup
        · refine ⟨fun _ => (handOver_mem hparse w).2 hupgrades, ?_⟩
          intro o' rest' h hdash
          rw [hparse] at h
          cases h
          rw [hupgrades.backup] at hdash
          cases hdash

/-- A machine on which every check is passed. -/
def goodWorld : World where
  psql := .done
  overlayUpperEtc := true
  romDir := true
  rootfsTmpfs := false
  askAbort := false
  askKeepConfig := id
  mountOk := true
  tarOk := true
  isFile := fun _ => true
  restoreStatus := 0
  platformCheckImage := true
  wgetOk := true
  readlink := id
  jsonLoad := true
  valid := some 1
  magicWord := "1f8b".toList

/-- `sysupgrade -l` only lists files, and wipes the data. -/
theorem sysupgrade_list_cleans :
    ¬ ∀ (args : List Word) (w : World), Lawful args w := by
  intro hall
  have hlaw := hall ["-l".toList] goodWorld
  have hclean : .cleanData ∈ (sysupgrade ["-l".toList] goodWorld).events := by decide +kernel
  exact absurd (hlaw.clean hclean) (by decide +kernel)

end Sysupgrade

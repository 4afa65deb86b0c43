import LighttpdFuzz.CampaignStop
import LighttpdFuzz.LaunchLog

/-!
# Logs and their archives

Before a campaign starts a configuration for the first time, it moves the
error log and the sanitizer logs that earlier campaigns have left into
directories of its own, and then empties the error log. A move may fail;
then the configuration is not started.

Nothing that was written is lost, whatever is moved when: the archives of
the campaigns that have started a configuration, one after the other, and
the log itself have everything (`Balanced`). It rests on names that never
collide, `Owns.config_eq` and `slot_injective`, so that a move overwrites
nothing (`LogRun.not_slot`); the id of a campaign is new.

The calls of `logrotate` are left out. It copies a log that has become
large and empties it, keeps ten of the copies and deletes the older ones.
-/

namespace LighttpdFuzz

/-! ## The files -/

/-- The files below `logs`, under their paths from there. -/
abbrev LogFiles := AssocMap Text Text

/-- `errorN` -/
def errorName (config : Nat) : Text := "error".toList ++ Text.ofNat config

/-- `asanN.log.` -/
def sanitizerName (config : Nat) : Text :=
  "asan".toList ++ Text.ofNat config ++ ".log.".toList

/-- `error_archive_dir` -/
def errorArchive (campaignId : Text) : Text := "old/error/".toList ++ campaignId ++ ['/']

/-- `sanitizer_archive_dir` -/
def sanitizerArchive (campaignId : Text) : Text := "old/asan/".toList ++ campaignId ++ ['/']

theorem Campaign.errorLog_eq (campaign : Campaign) (config : Nat) :
    campaign.errorLog config = campaign.directory ++ "/logs/".toList ++ errorName config := by
  simp [Campaign.errorLog, errorName]

theorem Campaign.sanitizerPrefix_eq (campaign : Campaign) (config launchNumber : Nat) :
    campaign.sanitizerPrefix config launchNumber = campaign.directory ++ "/logs/".toList ++
      (sanitizerName config ++ campaign.launchId launchNumber) := by
  simp [Campaign.sanitizerPrefix, Campaign.launchId, sanitizerName]

/-- The files with all that has ever been written under each name. -/
structure LogState where
  files : LogFiles
  written : Text → Text

/-- What a log holds; nothing if there is none. -/
def LogFiles.text (files : LogFiles) (path : Text) : Text := (files.get path).getD []

/-- `mv "$source" "$target"`, if the move succeeds -/
def LogFiles.mv (files : LogFiles) (source target : Text) : LogFiles :=
  match files.get source with
  | none => files
  | some content => (files.erase source).set target content

/-- `>>"$name"` -/
def LogState.append (s : LogState) (name text : Text) : LogState where
  files := s.files.set name (s.files.text name ++ text)
  written := Function.update s.written name (s.written name ++ text)

/-- `: >"$name"` -/
def LogState.truncate (s : LogState) (name : Text) : LogState :=
  { s with files := s.files.set name [] }

/-! ## A launch -/

/-- What `run_fuzzer` is started with, and which files can be moved. -/
structure LogLaunch where
  campaignId : Text
  config : Nat
  launchNumber : Nat
  kind : Supervisor.LaunchKind
  /-- Whether `LOG_OUTPUT` is 1. -/
  logOutput : Bool
  /-- The output of `date`. -/
  time : Text
  renames : Text → Bool

namespace LogLaunch

def launchId (l : LogLaunch) : Text := l.campaignId ++ '-' :: Text.ofNat l.launchNumber

def archivePreviousErrorLog (l : LogLaunch) (files : LogFiles) : Bool × LogFiles :=
  let errorLog := errorName l.config
  if (files.get errorLog).isSome then
    if l.renames errorLog then (true, files.mv errorLog (errorArchive l.campaignId ++ errorLog))
    else (false, files)
  else (true, files)

/-- What `asanN.log.*` stands for, in any order. -/
def sanitizerLogs (l : LogLaunch) (files : LogFiles) : List Text :=
  files.keys.filter fun path => decide (sanitizerName l.config <+: path ∧ '/' ∉ path)

/-- `mv` goes on after a file that it cannot move. -/
def archivePreviousSanitizerLogs (l : LogLaunch) (files : LogFiles) : Bool × LogFiles :=
  let logs := l.sanitizerLogs files
  (logs.all l.renames, (logs.filter l.renames).foldl
    (fun files name => files.mv name (sanitizerArchive l.campaignId ++ name)) files)

/-- The archiving of `run_fuzzer`. -/
def archivePrevious (l : LogLaunch) (files : LogFiles) : Bool × LogFiles :=
  let errors := l.archivePreviousErrorLog files
  if errors.1 then l.archivePreviousSanitizerLogs errors.2 else errors

/-- What `run_fuzzer` does to the logs, and whether it goes on. -/
def prepareLogs (l : LogLaunch) (s : LogState) : Bool × LogState :=
  let errorLog := errorName l.config
  let launch := launchLine l.launchId ++ ['\n']
  match l.kind with
  | .initial =>
      let archive := l.archivePrevious s.files
      let s' := { s with files := archive.2 }
      (archive.1, if archive.1 ∧ l.logOutput then (s'.truncate errorLog).append errorLog launch
        else s')
  | .restart =>
      (true, if l.logOutput then
          (s.append errorLog ('\n' :: restartLine l.config l.time ++ ['\n'])).append errorLog launch
        else s)

end LogLaunch

/-- Campaigns start their configurations, one after the other or at the
same time, and supervisors, children and sanitizers write. -/
inductive LogEvent where
  | launch (l : LogLaunch)
  | write (name text : Text)

def LogState.step (s : LogState) : LogEvent → LogState
  | .launch l => (l.prepareLogs s).2
  | .write name text => s.append name text

def LogState.run (s : LogState) (events : List LogEvent) : LogState := events.foldl step s

/-- The campaigns that start a configuration for the first time. -/
def initialLaunches (config : Nat) (events : List LogEvent) : List Text :=
  events.filterMap fun
    | .launch l => if l.kind = .initial ∧ l.config = config then some l.campaignId else none
    | .write _ _ => none

/-! ## Names -/

/-- A log of a configuration. -/
def Owns (config : Nat) (name : Text) : Prop :=
  '/' ∉ name ∧ (name = errorName config ∨ sanitizerName config <+: name)

theorem owns_errorName (config : Nat) : Owns config (errorName config) := by
  refine ⟨fun h => ?_, .inl rfl⟩
  rcases List.mem_append.mp h with h | h
  · exact absurd h (by decide)
  · exact absurd (Text.isDigit_ofNat h) (by decide)

theorem Owns.config_eq {config config' : Nat} {name : Text} (h : Owns config name)
    (h' : Owns config' name) : config = config' := by
  have hchar : ∀ {n : Nat}, sanitizerName n <+: name → name.head? = some 'a' := by
    rintro n ⟨t, rfl⟩
    rfl
  rcases h.2 with rfl | hasan
  · rcases h'.2 with heq | hasan'
    · exact Text.ofNat_injective (List.append_cancel_left heq)
    · cases hchar hasan'
  · rcases h'.2 with rfl | hasan'
    · cases hchar hasan
    · obtain ⟨t, ht⟩ := hasan
      obtain ⟨t', ht'⟩ := hasan'
      have hdot : ".log.".toList = '.' :: "log.".toList := rfl
      have heq := ht.trans ht'.symm
      simp only [sanitizerName, List.append_assoc, hdot, List.cons_append] at heq
      have hcancel := List.append_cancel_left heq
      exact Text.ofNat_injective (Text.digits_append_inj (by decide)
        (fun _ => Text.isDigit_ofNat) (fun _ => Text.isDigit_ofNat) hcancel).1

/-- Where a campaign may have put a log. -/
def Slot (campaignId name path : Text) : Prop :=
  path = errorArchive campaignId ++ name ∨ path = sanitizerArchive campaignId ++ name

theorem Slot.mem_slash {campaignId name path : Text} (h : Slot campaignId name path) :
    '/' ∈ path := by
  have hdir : ∀ dir : Text, '/' ∈ dir ++ ['/'] ++ name := by
    intro dir
    simp
  rcases h with rfl | rfl
  · exact hdir _
  · exact hdir _

theorem errorArchive_ne_sanitizerArchive (a b a' b' : Text) :
    errorArchive a ++ b ≠ sanitizerArchive a' ++ b' := by
  intro h
  have herror : (errorArchive a ++ b)[4]? = some 'e' := rfl
  have hasan : (sanitizerArchive a' ++ b')[4]? = some 'a' := rfl
  rw [h, hasan] at herror
  cases herror

theorem archive_append_inj {dir a a' b b' : Text} (ha : '/' ∉ a) (ha' : '/' ∉ a')
    (h : dir ++ a ++ ['/'] ++ b = dir ++ a' ++ ['/'] ++ b') : a = a' ∧ b = b' := by
  simp only [List.append_assoc, List.singleton_append] at h
  exact Text.append_sep_inj ha ha' (List.append_cancel_left h)

theorem slot_injective {a a' name name' path : Text} (ha : '/' ∉ a) (ha' : '/' ∉ a')
    (h : Slot a name path) (h' : Slot a' name' path) : a = a' ∧ name = name' := by
  rcases h with h | h
  · rcases h' with h' | h'
    · exact archive_append_inj ha ha' (h.symm.trans h')
    · exact absurd (h.symm.trans h') (errorArchive_ne_sanitizerArchive _ _ _ _)
  · rcases h' with h' | h'
    · exact absurd (h'.symm.trans h) (errorArchive_ne_sanitizerArchive _ _ _ _)
    · exact archive_append_inj ha ha' (h.symm.trans h')

theorem slot_name_eq {a name name' path : Text} (h : Slot a name path) (h' : Slot a name' path) :
    name = name' := by
  rcases h with rfl | rfl
  · rcases h' with h' | h'
    · exact List.append_cancel_left h'
    · exact absurd h' (errorArchive_ne_sanitizerArchive _ _ _ _)
  · rcases h' with h' | h'
    · exact absurd h'.symm (errorArchive_ne_sanitizerArchive _ _ _ _)
    · exact List.append_cancel_left h'

/-! ## One move -/

theorem LogFiles.get_mv {files : LogFiles} {source target content : Text}
    (h : files.get source = some content) (path : Text) :
    (files.mv source target).get path =
      if path = target then some content else if path = source then none else files.get path := by
  unfold LogFiles.mv
  rw [h]
  exact (AssocMap.get_set _ _ _ _).trans (by rw [AssocMap.get_erase])

theorem LogFiles.mv_of_none {files : LogFiles} {source target : Text}
    (h : files.get source = none) : files.mv source target = files := by
  unfold LogFiles.mv
  rw [h]

/-- Nothing is overwritten if this log is moved. -/
def Vacant (campaignId : Text) (files : LogFiles) (name : Text) : Prop :=
  files.get name = none ∨ ∀ path, Slot campaignId name path → files.get path = none

/-- What a campaign has put aside of a log. -/
def archived (files : LogFiles) (campaignId name : Text) : Text :=
  files.text (errorArchive campaignId ++ name) ++ files.text (sanitizerArchive campaignId ++ name)

theorem archived_eq_nil {files : LogFiles} {campaignId name : Text}
    (h : ∀ path, Slot campaignId name path → files.get path = none) :
    archived files campaignId name = [] := by
  unfold archived LogFiles.text
  rw [h _ (.inl rfl), h _ (.inr rfl)]
  rfl

/-- What archiving for a configuration does: its logs are kept or moved,
everything else stays. -/
structure Archives (campaignId : Text) (config : Nat) (files files' : LogFiles) : Prop where
  names : ∀ name, '/' ∉ name → ¬ Owns config name → files'.get name = files.get name
  slots : ∀ path, '/' ∈ path → (∀ name, Owns config name → ¬ Slot campaignId name path) →
    files'.get path = files.get path
  kept : ∀ name, Owns config name → Vacant campaignId files name →
    Vacant campaignId files' name ∧
      archived files' campaignId name ++ files'.text name =
        archived files campaignId name ++ files.text name

namespace Archives

variable {campaignId : Text} {config : Nat} {files files' files'' : LogFiles}

theorem refl (files : LogFiles) : Archives campaignId config files files :=
  ⟨fun _ _ _ => rfl, fun _ _ _ => rfl, fun _ _ hvacant => ⟨hvacant, rfl⟩⟩

theorem trans (h : Archives campaignId config files files')
    (h' : Archives campaignId config files' files'') :
    Archives campaignId config files files'' where
  names name hslash howns := (h'.names name hslash howns).trans (h.names name hslash howns)
  slots path hslash hslot := (h'.slots path hslash hslot).trans (h.slots path hslash hslot)
  kept name howns hvacant := by
    obtain ⟨hmiddle, heq⟩ := h.kept name howns hvacant
    obtain ⟨hlast, heq'⟩ := h'.kept name howns hmiddle
    exact ⟨hlast, heq'.trans heq⟩

section Move

variable {name target content : Text}

/-- A move touches one name only. -/
theorem get_mv_name (hcontent : files.get name = some content)
    (hslot : Slot campaignId name target) {other : Text} (hslash : '/' ∉ other)
    (hne : other ≠ name) : (files.mv name target).get other = files.get other := by
  have htarget : other ≠ target := by
    rintro rfl
    exact hslash hslot.mem_slash
  rw [LogFiles.get_mv hcontent, if_neg htarget, if_neg hne]

/-- It touches one path of the archives only. -/
theorem get_mv_path (hcontent : files.get name = some content) (howns : Owns config name)
    {path : Text} (hslash : '/' ∈ path) (hne : path ≠ target) :
    (files.mv name target).get path = files.get path := by
  have hname : path ≠ name := by
    rintro rfl
    exact howns.1 hslash
  rw [LogFiles.get_mv hcontent, if_neg hne, if_neg hname]

/-- The log that is moved, if no archive has it yet. -/
theorem archived_mv (hcontent : files.get name = some content) (howns : Owns config name)
    (hslot : Slot campaignId name target)
    (hnone : ∀ path, Slot campaignId name path → files.get path = none) :
    (files.mv name target).get name = none ∧
      archived (files.mv name target) campaignId name ++ (files.mv name target).text name =
        archived files campaignId name ++ files.text name := by
  have htarget : name ≠ target := by
    rintro rfl
    exact howns.1 hslot.mem_slash
  have hgone : (files.mv name target).get name = none := by
    rw [LogFiles.get_mv hcontent, if_neg htarget, if_pos rfl]
  have hmoved : (files.mv name target).get target = some content := by
    rw [LogFiles.get_mv hcontent, if_pos rfl]
  refine ⟨hgone, ?_⟩
  rw [archived_eq_nil hnone]
  unfold archived LogFiles.text
  rcases hslot with rfl | rfl
  · have hother := get_mv_path hcontent howns (Slot.mem_slash (.inr rfl))
      (errorArchive_ne_sanitizerArchive campaignId name campaignId name).symm
    rw [hgone, hmoved, hcontent, hother, hnone _ (.inr rfl)]
    simp
  · have hother := get_mv_path hcontent howns (Slot.mem_slash (.inl rfl))
      (errorArchive_ne_sanitizerArchive campaignId name campaignId name)
    rw [hgone, hmoved, hcontent, hother, hnone _ (.inl rfl)]
    simp

theorem mv (howns : Owns config name) (hslot : Slot campaignId name target) :
    Archives campaignId config files (files.mv name target) := by
  cases hcontent : files.get name with
  | none =>
      rw [LogFiles.mv_of_none hcontent]
      exact refl files
  | some content =>
      refine ⟨fun other hslash hother => ?_, fun path hslash hpaths => ?_,
        fun other hother hvacant => ?_⟩
      · exact get_mv_name hcontent hslot hslash fun heq => hother (heq.symm ▸ howns)
      · exact get_mv_path hcontent howns hslash fun heq => hpaths name howns (heq.symm ▸ hslot)
      · rcases eq_or_ne other name with rfl | hne
        · -- The vacancy says that no archive has it yet.
          have hnone : ∀ path, Slot campaignId other path → files.get path = none :=
            hvacant.resolve_left (by rw [hcontent]; exact Option.some_ne_none _)
          obtain ⟨hgone, hkept⟩ := archived_mv hcontent howns hslot hnone
          exact ⟨.inl hgone, hkept⟩
        · have hslots : ∀ path, Slot campaignId other path →
              (files.mv name target).get path = files.get path := by
            intro path hother'
            refine get_mv_path hcontent howns hother'.mem_slash ?_
            rintro rfl
            exact hne (slot_name_eq hother' hslot)
          have hlogs := get_mv_name hcontent hslot hother.1 hne
          refine ⟨hvacant.imp hlogs.trans fun hnone path hpath =>
            (hslots path hpath).trans (hnone path hpath), ?_⟩
          unfold archived LogFiles.text
          rw [hlogs, hslots _ (.inl rfl), hslots _ (.inr rfl)]

end Move

end Archives

/-! ## The archiving of a launch -/

theorem get_foldl_mv {dir : Text} (hdir : '/' ∈ dir) {name : Text} (hname : '/' ∉ name) :
    ∀ (names : List Text) (files : LogFiles),
      (names.foldl (fun files name => files.mv name (dir ++ name)) files).get name =
        if name ∈ names then none else files.get name := by
  intro names
  induction names with
  | nil => exact fun _ => rfl
  | cons first names ih =>
      intro files
      rw [List.foldl_cons, ih]
      by_cases hmem : name ∈ names
      · rw [if_pos hmem, if_pos (List.mem_cons_of_mem _ hmem)]
      · rw [if_neg hmem]
        cases hcontent : files.get first with
        | none =>
            rw [LogFiles.mv_of_none hcontent]
            rcases eq_or_ne name first with rfl | hne
            · rw [if_pos List.mem_cons_self, hcontent]
            · rw [if_neg (List.mem_cons.not.mpr (not_or.mpr ⟨hne, hmem⟩))]
        | some content =>
            have htarget : name ≠ dir ++ first := by
              rintro rfl
              exact hname (List.mem_append_left _ hdir)
            rw [LogFiles.get_mv hcontent, if_neg htarget]
            rcases eq_or_ne name first with rfl | hne
            · rw [if_pos rfl, if_pos List.mem_cons_self]
            · rw [if_neg hne, if_neg (List.mem_cons.not.mpr (not_or.mpr ⟨hne, hmem⟩))]

theorem mem_sanitizerArchive (campaignId : Text) : '/' ∈ sanitizerArchive campaignId :=
  List.mem_append_right _ (List.mem_singleton_self _)

namespace LogLaunch

variable {l : LogLaunch} {files : LogFiles}

theorem owns_of_mem_sanitizerLogs {name : Text} (h : name ∈ l.sanitizerLogs files) :
    Owns l.config name := by
  obtain ⟨hasan, hslash⟩ := of_decide_eq_true (List.mem_filter.mp h).2
  exact ⟨hslash, .inr hasan⟩

theorem archives_archivePreviousErrorLog :
    Archives l.campaignId l.config files (l.archivePreviousErrorLog files).2 := by
  unfold archivePreviousErrorLog
  dsimp only
  split_ifs
  · exact Archives.mv (owns_errorName _) (.inl rfl)
  · exact Archives.refl files
  · exact Archives.refl files

theorem archives_archivePreviousSanitizerLogs :
    Archives l.campaignId l.config files (l.archivePreviousSanitizerLogs files).2 := by
  have hfold : ∀ names : List Text, (∀ name ∈ names, Owns l.config name) → ∀ files : LogFiles,
      Archives l.campaignId l.config files (names.foldl
        (fun files name => files.mv name (sanitizerArchive l.campaignId ++ name)) files) := by
    intro names
    induction names with
    | nil => exact fun _ => Archives.refl
    | cons name names ih =>
        intro hnames files
        obtain ⟨hname, hnames⟩ := List.forall_mem_cons.mp hnames
        exact (Archives.mv hname (.inr rfl)).trans (ih hnames _)
  exact hfold _ (fun name hname => owns_of_mem_sanitizerLogs (List.mem_filter.mp hname).1) files

theorem archives_archivePrevious (l : LogLaunch) (files : LogFiles) :
    Archives l.campaignId l.config files (l.archivePrevious files).2 := by
  unfold archivePrevious
  dsimp only
  split_ifs
  · exact archives_archivePreviousErrorLog.trans archives_archivePreviousSanitizerLogs
  · exact archives_archivePreviousErrorLog

/-- If every move succeeds, no log is left. -/
theorem get_archivePrevious (h : (l.archivePrevious files).1 = true) {name : Text}
    (howns : Owns l.config name) : (l.archivePrevious files).2.get name = none := by
  unfold archivePrevious at h ⊢
  dsimp only at h ⊢
  split_ifs at h ⊢ with herrors
  · unfold archivePreviousSanitizerLogs at h ⊢
    dsimp only at h ⊢
    rw [get_foldl_mv (mem_sanitizerArchive _) howns.1]
    split_ifs with hmem
    · rfl
    · rcases howns.2 with rfl | hasan
      · unfold archivePreviousErrorLog at herrors ⊢
        dsimp only at herrors ⊢
        split_ifs at herrors ⊢ with hsome hrenames
        · obtain ⟨content, hcontent⟩ := Option.isSome_iff_exists.mp hsome
          have htarget : errorName l.config ≠ errorArchive l.campaignId ++ errorName l.config :=
            fun heq => howns.1 (heq ▸ Slot.mem_slash (.inl rfl))
          rw [LogFiles.get_mv hcontent, if_neg htarget, if_pos rfl]
        · exact Option.not_isSome_iff_eq_none.mp hsome
      · by_contra hsome
        have hlog : name ∈ l.sanitizerLogs (l.archivePreviousErrorLog files).2 := by
          refine List.mem_filter.mpr ⟨?_, decide_eq_true ⟨hasan, howns.1⟩⟩
          rw [← AssocMap.get_isSome_iff, Option.isSome_iff_ne_none]
          exact hsome
        exact hmem (List.mem_filter.mpr ⟨hlog, List.all_eq_true.mp h name hlog⟩)
  · exact absurd h herrors

end LogLaunch

/-! ## What is written is kept -/

/-- What has been written under a name is what `kept` has, and then what
the log holds. -/
def Balanced (s : LogState) (name kept : Text) : Prop :=
  s.written name = kept ++ s.files.text name

theorem Balanced.append {s : LogState} {name kept : Text} (h : Balanced s name kept)
    (other text : Text) : Balanced (s.append other text) name kept := by
  unfold Balanced LogState.append LogFiles.text
  simp only
  rcases eq_or_ne name other with rfl | hne
  · rw [Function.update_self, AssocMap.get_set_self, Option.getD_some, h, List.append_assoc]
    rfl
  · rw [Function.update_of_ne hne, AssocMap.get_set_of_ne _ hne]
    exact h

/-- Emptying a log that is not there loses nothing. -/
theorem Balanced.truncate {s : LogState} {name kept : Text} (h : Balanced s name kept)
    {other : Text} (hother : s.files.get other = none) :
    Balanced (s.truncate other) name kept := by
  unfold Balanced LogState.truncate LogFiles.text
  simp only
  rcases eq_or_ne name other with rfl | hne
  · rw [AssocMap.get_set_self]
    unfold Balanced LogFiles.text at h
    rw [h, hother]
    rfl
  · rw [AssocMap.get_set_of_ne _ hne]
    exact h

/-- The start of a configuration only writes once the old logs are gone. -/
theorem balanced_prepareLogs {l : LogLaunch} {s : LogState} {name kept : Text}
    (hinitial : l.kind = .initial → Balanced { s with files := (l.archivePrevious s.files).2 }
      name kept)
    (hrestart : l.kind = .restart → Balanced s name kept) :
    Balanced (l.prepareLogs s).2 name kept := by
  unfold LogLaunch.prepareLogs
  cases hkind : l.kind with
  | initial =>
      dsimp only
      split_ifs with hwrites
      · exact ((hinitial hkind).truncate (LogLaunch.get_archivePrevious hwrites.1
          (owns_errorName _))).append _ _
      · exact hinitial hkind
  | restart =>
      dsimp only
      split_ifs
      · exact ((hrestart hkind).append _ _).append _ _
      · exact hrestart hkind

theorem get_append {s : LogState} {name path : Text} (hslash : '/' ∈ path) (hname : '/' ∉ name)
    (text : Text) : (s.append name text).files.get path = s.files.get path := by
  refine AssocMap.get_set_of_ne _ ?_ _
  rintro rfl
  exact hname hslash

/-- Of what is put aside, a launch changes nothing once it has archived. -/
theorem get_prepareLogs {l : LogLaunch} {s : LogState} {path : Text} (hslash : '/' ∈ path) :
    (l.prepareLogs s).2.files.get path = match l.kind with
      | .initial => (l.archivePrevious s.files).2.get path
      | .restart => s.files.get path := by
  have herror := (owns_errorName l.config).1
  have htruncate : ∀ {t : LogState},
      (t.truncate (errorName l.config)).files.get path = t.files.get path := by
    intro t
    refine AssocMap.get_set_of_ne _ ?_ _
    rintro rfl
    exact herror hslash
  unfold LogLaunch.prepareLogs
  cases l.kind with
  | initial =>
      dsimp only
      split_ifs
      · rw [get_append hslash herror, htruncate]
      · rfl
  | restart =>
      dsimp only
      split_ifs
      · rw [get_append hslash herror, get_append hslash herror]
      · rfl

/-- Outside the names that an event is about, nothing changes. -/
theorem get_step {s : LogState} {e : LogEvent} {path : Text} (hslash : '/' ∈ path)
    (hname : ∀ name text, e = .write name text → '/' ∉ name)
    (hslot : ∀ l, e = .launch l → l.kind = .initial → ∀ name, Owns l.config name →
      ¬ Slot l.campaignId name path) : (s.step e).files.get path = s.files.get path := by
  cases e with
  | write name text => exact get_append hslash (hname name text rfl) text
  | launch l =>
      refine (get_prepareLogs hslash).trans ?_
      cases hkind : l.kind with
      | initial => exact (l.archives_archivePrevious s.files).slots path hslash (hslot l rfl hkind)
      | restart => rfl

/-! ## Runs -/

/-- What the campaigns of a run have to do with each other: their ids are
new, and each of them starts a configuration once. -/
structure LogRun (files : LogFiles) (events : List LogEvent) : Prop where
  campaigns : ∀ l, .launch l ∈ events → '/' ∉ l.campaignId
  names : ∀ name text, .write name text ∈ events → '/' ∉ name
  once : ∀ config, (initialLaunches config events).Nodup
  fresh : ∀ l, .launch l ∈ events → l.kind = .initial → ∀ name, Owns l.config name →
    ∀ path, Slot l.campaignId name path → files.get path = none

theorem mem_initialLaunches {config : Nat} {events : List LogEvent} {campaignId : Text} :
    campaignId ∈ initialLaunches config events ↔ ∃ l, .launch l ∈ events ∧ l.kind = .initial
      ∧ l.config = config ∧ l.campaignId = campaignId := by
  unfold initialLaunches
  rw [List.mem_filterMap]
  constructor
  · rintro ⟨l | ⟨name, text⟩, hmem, hsome⟩
    · dsimp only at hsome
      split_ifs at hsome with hl
      exact ⟨l, hmem, hl.1, hl.2, Option.some.inj hsome⟩
    · cases hsome
  · rintro ⟨l, hmem, hkind, hconfig, rfl⟩
    exact ⟨.launch l, hmem, if_pos ⟨hkind, hconfig⟩⟩

theorem initialLaunches_cons (config : Nat) (e : LogEvent) (events : List LogEvent) :
    initialLaunches config (e :: events) =
      initialLaunches config [e] ++ initialLaunches config events := by
  unfold initialLaunches
  rw [← List.filterMap_append]
  rfl

theorem initialLaunches_launch {l : LogLaunch} (h : l.kind = .initial) :
    initialLaunches l.config [.launch l] = [l.campaignId] := by
  simp [initialLaunches, h]

namespace LogRun

variable {s : LogState} {e : LogEvent} {events : List LogEvent}

/-- A launch has its archives for itself. -/
theorem not_slot (h : LogRun s.files (e :: events)) {l : LogLaunch} (hl : e = .launch l)
    (hkind : l.kind = .initial) {config : Nat} {campaignId name path : Text}
    (hlater : campaignId ∈ initialLaunches config events) (howns : Owns config name)
    (hslash : '/' ∉ campaignId) (hslot : Slot campaignId name path) :
    ∀ name', Owns l.config name' → ¬ Slot l.campaignId name' path := by
  intro name' howns' hslot'
  obtain ⟨rfl, rfl⟩ := slot_injective hslash
    (h.campaigns l (hl ▸ List.mem_cons_self)) hslot hslot'
  obtain rfl := howns.config_eq howns'
  have honce := h.once l.config
  rw [initialLaunches_cons, hl, initialLaunches_launch hkind] at honce
  exact (List.nodup_cons.mp honce).1 hlater

theorem step (h : LogRun s.files (e :: events)) : LogRun (s.step e).files events where
  campaigns l hl := h.campaigns l (List.mem_cons_of_mem _ hl)
  names name text hwrite := h.names name text (List.mem_cons_of_mem _ hwrite)
  once config := by
    have honce := h.once config
    rw [initialLaunches_cons] at honce
    exact honce.of_append_right
  fresh l hl hkind name howns path hslot := by
    have hmem := List.mem_cons_of_mem e hl
    rw [get_step hslot.mem_slash (fun name text he => h.names name text (he ▸ List.mem_cons_self))
      fun l' he hkind' => h.not_slot he hkind' (mem_initialLaunches.mpr ⟨l, hl, hkind, rfl, rfl⟩)
        howns (h.campaigns l hmem) hslot]
    exact h.fresh l hmem hkind name howns path hslot

/-- Nothing that is there is overwritten in an archive. -/
theorem get_step_of_some (h : LogRun s.files (e :: events)) {path content : Text}
    (hslash : '/' ∈ path) (hcontent : s.files.get path = some content) :
    (s.step e).files.get path = some content := by
  rw [get_step hslash (fun name text he => h.names name text (he ▸ List.mem_cons_self)) ?_]
  · exact hcontent
  · intro l he hkind name howns hslot
    rw [h.fresh l (he ▸ List.mem_cons_self) hkind name howns path hslot] at hcontent
    cases hcontent

theorem get_run_of_some : ∀ {events : List LogEvent} {s : LogState}, LogRun s.files events →
    ∀ {path content : Text}, '/' ∈ path → s.files.get path = some content →
      (s.run events).files.get path = some content := by
  intro events
  induction events with
  | nil => exact fun _ _ _ _ hcontent => hcontent
  | cons e events ih =>
      intro s h path content hslash hcontent
      exact ih h.step hslash (h.get_step_of_some hslash hcontent)

/-- The archives that have been filled stay as they are. -/
theorem archived_step (h : LogRun s.files (e :: events)) {config : Nat} {campaignId name : Text}
    (howns : Owns config name) (hslash : '/' ∉ campaignId)
    (hnew : campaignId ∉ initialLaunches config [e]) :
    archived (s.step e).files campaignId name = archived s.files campaignId name := by
  have hpath : ∀ path, Slot campaignId name path →
      (s.step e).files.get path = s.files.get path := by
    intro path hslot
    refine get_step hslot.mem_slash
      (fun name text he => h.names name text (he ▸ List.mem_cons_self))
      fun l he hkind name' howns' hslot' => hnew ?_
    obtain ⟨rfl, rfl⟩ := slot_injective hslash
      (h.campaigns l (he ▸ List.mem_cons_self)) hslot hslot'
    exact mem_initialLaunches.mpr
      ⟨l, he ▸ List.mem_singleton_self _, hkind, howns'.config_eq howns, rfl⟩
  unfold archived LogFiles.text
  rw [hpath _ (.inl rfl), hpath _ (.inr rfl)]

/-- A launch that is the first one of its campaign puts the log aside. -/
theorem balanced_initial {l : LogLaunch} (h : LogRun s.files (.launch l :: events))
    (hkind : l.kind = .initial) {name kept : Text} (howns : Owns l.config name)
    (hbalanced : Balanced s name kept) :
    Balanced (s.step (.launch l)) name
      (kept ++ archived (s.step (.launch l)).files l.campaignId name) := by
  have hfresh := h.fresh l List.mem_cons_self hkind name howns
  obtain ⟨-, heq⟩ := (l.archives_archivePrevious s.files).kept name howns (.inr hfresh)
  rw [archived_eq_nil hfresh, List.nil_append] at heq
  have hpath : ∀ path, '/' ∈ path → (s.step (.launch l)).files.get path =
      (l.archivePrevious s.files).2.get path := by
    intro path hslash
    refine (get_prepareLogs hslash).trans ?_
    rw [hkind]
  have harchived : archived (s.step (.launch l)).files l.campaignId name =
      archived (l.archivePrevious s.files).2 l.campaignId name := by
    unfold archived LogFiles.text
    rw [hpath _ (Slot.mem_slash (.inl rfl)), hpath _ (Slot.mem_slash (.inr rfl))]
  refine balanced_prepareLogs (fun _ => ?_) fun hrestart => by
    rw [hkind] at hrestart
    cases hrestart
  unfold Balanced at hbalanced ⊢
  rw [harchived, List.append_assoc, heq]
  exact hbalanced

/-- Any other launch leaves it where it is. -/
theorem balanced_other {l : LogLaunch} {config : Nat}
    (hother : ¬ (l.kind = .initial ∧ l.config = config)) {name kept : Text}
    (howns : Owns config name) (hbalanced : Balanced s name kept) :
    Balanced (s.step (.launch l)) name kept := by
  refine balanced_prepareLogs (fun hkind => ?_) fun _ => hbalanced
  have hnot : ¬ Owns l.config name := fun h => hother ⟨hkind, h.config_eq howns⟩
  unfold Balanced LogFiles.text at hbalanced ⊢
  rw [(l.archives_archivePrevious s.files).names name howns.1 hnot]
  exact hbalanced

/-- The step of a run, for one log: either its configuration is started for
the first time in a campaign, which puts the log aside, or the log goes on. -/
theorem balanced_step (h : LogRun s.files (e :: events)) {config : Nat} {name kept : Text}
    (howns : Owns config name) (hbalanced : Balanced s name kept) :
    Balanced (s.step e) name (kept ++
      (initialLaunches config [e]).flatMap fun campaignId =>
        archived (s.step e).files campaignId name) := by
  cases e with
  | write other text =>
      have hnone : initialLaunches config [.write other text] = [] := rfl
      rw [hnone, List.flatMap_nil, List.append_nil]
      exact hbalanced.append other text
  | launch l =>
      by_cases hfirst : l.kind = .initial ∧ l.config = config
      · obtain ⟨hkind, rfl⟩ := hfirst
        rw [initialLaunches_launch hkind, List.flatMap_singleton]
        exact h.balanced_initial hkind howns hbalanced
      · have hnone : initialLaunches config [.launch l] = [] := by
          simp [initialLaunches, hfirst]
        rw [hnone, List.flatMap_nil, List.append_nil]
        exact balanced_other hfirst howns hbalanced

theorem run : ∀ {before after : List LogEvent} {s : LogState}, LogRun s.files (before ++ after) →
    LogRun (s.run before).files after := by
  intro before
  induction before with
  | nil => exact fun h => h
  | cons e before ih =>
      intro after s h
      exact ih (s := s.step e) h.step

/-- By induction over the run; `earlier` are the campaigns before it. -/
theorem balanced_run_from : ∀ {events : List LogEvent} {s : LogState}, LogRun s.files events →
    ∀ {config : Nat} {name : Text} {earlier : List Text}, Owns config name →
      (∀ campaignId ∈ earlier, '/' ∉ campaignId) →
      (earlier ++ initialLaunches config events).Nodup → ∀ {before : Text},
      Balanced s name (before ++ earlier.flatMap fun campaignId =>
        archived s.files campaignId name) →
      Balanced (s.run events) name (before ++ (earlier ++ initialLaunches config events).flatMap
        fun campaignId => archived (s.run events).files campaignId name) := by
  intro events
  induction events with
  | nil =>
      intro s _ config name earlier _ _ _ before hbalanced
      have hnone : initialLaunches config [] = [] := rfl
      rw [hnone, List.append_nil]
      exact hbalanced
  | cons e events ih =>
      intro s h config name earlier howns hslash hnodup before hbalanced
      rw [initialLaunches_cons, ← List.append_assoc] at hnodup ⊢
      refine ih h.step howns ?_ hnodup ?_
      · intro campaignId hmem
        rcases List.mem_append.mp hmem with hmem | hmem
        · exact hslash campaignId hmem
        · obtain ⟨l, hl, -, -, rfl⟩ := mem_initialLaunches.mp hmem
          exact h.campaigns l (List.mem_singleton.mp hl ▸ List.mem_cons_self)
      · have hstep := h.balanced_step howns hbalanced
        have hearlier : (earlier.flatMap fun campaignId => archived s.files campaignId name) =
            earlier.flatMap fun campaignId => archived (s.step e).files campaignId name := by
          refine List.flatMap_congr fun campaignId hmem => ?_
          refine (h.archived_step howns (hslash campaignId hmem) fun hnew => ?_).symm
          exact (List.nodup_append.mp hnodup.of_append_left).2.2 campaignId hmem campaignId hnew rfl
        rw [hearlier, List.append_assoc] at hstep
        rw [List.flatMap_append]
        exact hstep

theorem balanced_run {config : Nat} {name before : Text} (h : LogRun s.files events)
    (howns : Owns config name) (hbalanced : Balanced s name before) :
    Balanced (s.run events) name (before ++ (initialLaunches config events).flatMap
      fun campaignId => archived (s.run events).files campaignId name) := by
  have hall := @balanced_run_from events s h config name [] howns
    (fun _ hmem => absurd hmem List.not_mem_nil) (h.once config) before
  rw [List.flatMap_nil, List.append_nil, List.nil_append] at hall
  exact hall hbalanced

end LogRun

/-- The logs before anything has been written by the run. -/
def LogState.start (files : LogFiles) : LogState := ⟨files, files.text⟩

/-- In a run with new campaigns, whatever fails to be moved, and at each
moment: what is in an archive stays; the archives of a log in the order
of the campaigns, and then the log, are everything that has been written
to it; and after a first start that succeeds, until the next one, the logs of
the configuration are what has been written since. -/
theorem logs_kept {files : LogFiles} {before after : List LogEvent}
    (h : LogRun files (before ++ after)) :
    (∀ path content, '/' ∈ path →
      ((LogState.start files).run before).files.get path = some content →
        ((LogState.start files).run (before ++ after)).files.get path = some content) ∧
    (∀ config name, Owns config name →
      ((LogState.start files).run (before ++ after)).written name =
        ((initialLaunches config (before ++ after)).flatMap fun campaignId =>
          archived ((LogState.start files).run (before ++ after)).files campaignId name) ++
        ((LogState.start files).run (before ++ after)).files.text name) ∧
    (∀ l later, after = .launch l :: later → l.kind = .initial →
      (l.prepareLogs ((LogState.start files).run before)).1 = true →
      initialLaunches l.config later = [] → ∀ name, Owns l.config name →
        ((LogState.start files).run (before ++ after)).written name =
          ((LogState.start files).run before).written name ++
            ((LogState.start files).run (before ++ after)).files.text name) := by
  have hrun : (LogState.start files).run (before ++ after) =
      ((LogState.start files).run before).run after := List.foldl_append
  have hafter : LogRun ((LogState.start files).run before).files after :=
    LogRun.run (s := LogState.start files) h
  rw [hrun]
  refine ⟨fun path content hslash => hafter.get_run_of_some hslash, fun config name howns => ?_,
    ?_⟩
  · have hstart : Balanced (LogState.start files) name [] := rfl
    have hall := LogRun.balanced_run (s := LogState.start files) h howns hstart
    rw [hrun] at hall
    exact hall
  · rintro l later rfl hkind hok hnone name howns
    have harchive : (l.archivePrevious ((LogState.start files).run before).files).1 = true := by
      unfold LogLaunch.prepareLogs at hok
      rw [hkind] at hok
      exact hok
    have hgone := LogLaunch.get_archivePrevious harchive howns
    have hempty : Balanced (((LogState.start files).run before).step (.launch l)) name
        (((LogState.start files).run before).written name) := by
      refine balanced_prepareLogs (fun _ => ?_) fun hrestart => ?_
      · unfold Balanced LogFiles.text
        rw [hgone, Option.getD_none, List.append_nil]
      · rw [hkind] at hrestart
        cases hrestart
    have hall := hafter.step.balanced_run howns hempty
    rw [hnone, List.flatMap_nil, List.append_nil] at hall
    exact hall

/-- The first start of configuration 1 in a campaign. -/
def demoLaunch (campaignId : Text) : LogLaunch where
  campaignId := campaignId
  config := 1
  launchNumber := 1
  kind := .initial
  logOutput := true
  time := []
  renames := fun _ => true

def demoEvents : List LogEvent :=
  [.launch (demoLaunch ['A']), .write (errorName 1) "#1\n".toList, .launch (demoLaunch ['B'])]

/-- The log of the first campaign is put aside by the second, and stays
there when the third one starts. -/
theorem logs_kept_demo :
    (((LogState.start .empty).run (demoEvents ++ [.launch (demoLaunch ['C'])])).files.get
        (errorArchive ['B'] ++ errorName 1) = some (launchLine "A-1".toList ++ "\n#1\n".toList)) ∧
    ((LogState.start .empty).run (demoEvents ++ [.launch (demoLaunch ['C'])])).written
        (errorName 1) =
      ((LogState.start .empty).run demoEvents).written (errorName 1) ++
        ((LogState.start .empty).run (demoEvents ++ [.launch (demoLaunch ['C'])])).files.text
          (errorName 1) := by
  have hrun : LogRun .empty (demoEvents ++ [.launch (demoLaunch ['C'])]) := by
    refine ⟨?_, ?_, fun config => ?_, fun _ _ _ _ _ _ _ => rfl⟩
    · simp [demoEvents, demoLaunch]
    · have hname := (owns_errorName 1).1
      simp [demoEvents, hname]
    · by_cases hconfig : 1 = config <;> simp [initialLaunches, demoEvents, demoLaunch, hconfig]
  have hkept := logs_kept hrun
  exact ⟨hkept.1 _ _ (Slot.mem_slash (.inl rfl)) (by rfl),
    hkept.2.2 _ [] rfl rfl (by rfl) rfl _ (owns_errorName 1)⟩

end LighttpdFuzz

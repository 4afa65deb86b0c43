import LighttpdFuzz.ActiveProfiles
import LighttpdFuzz.AwkText

/-!
# What the status says

`status.sh` shows which profiles run. It takes a PID file for one whose
process has the executable of the profile, and otherwise looks for a
process with this executable that was started with the configuration of
the profile.

So it is more careful than `build.sh`, which does not look at the
arguments: a profile that is shown as running makes `build.sh` refuse, and
a profile that `build.sh` refuses for is shown, unless all its processes
were started in some other way than by `run.sh` (`status_report`).
-/

namespace LighttpdFuzz

variable {φ : Type}

/-! ## The script -/

/-- The processes, with the lines that `tr` makes of their arguments. -/
structure CommandTable extends ProcessTable where
  lines : Text → List Text

/-- What `read -r` gives of a file. -/
def readWord (content : Text) : Text :=
  ((firstLine content).dropWhile AwkText.isBlank).rdropWhile AwkText.isBlank

/-- The loop over the PID files of a profile. -/
def statusPidFile (table : CommandTable) (exe : Text) (files : φ → Option Text) :
    List φ → Option Text
  | [] => none
  | entry :: entries =>
      match files entry with
      | none => statusPidFile table exe files entries
      | some content =>
          let pid := readWord content
          if pid = [] ∨ pid.any (fun c => !c.isDigit) then statusPidFile table exe files entries
          else if table.signals pid ∧ actualExe (table.readlink pid) = exe then some pid
          else statusPidFile table exe files entries

def addLivePid (pids : AssocMap Text (List Text)) (p : LiveProcess) : AssocMap Text (List Text) :=
  let exe := actualExe p.exe
  if exe = [] then pids else pids.set exe ((pids.get exe).getD [] ++ [Text.ofNat p.pid])

/-- `live_pids_by_exe` -/
def livePidsByExe (table : CommandTable) : AssocMap Text (List Text) :=
  table.processes.foldl addLivePid .empty

/-- `$run_dir/config/lighttpd.conf` -/
def Layout.configFile (layout : Layout φ) (config : Nat) : Text :=
  layout.runDir config ++ "/config/lighttpd.conf".toList

/-- The id that a profile is shown with. -/
def profilePid (table : CommandTable) (layout : Layout φ) (files : φ → Option Text)
    (config : Nat) : Option Text :=
  let exe := layout.expectedExe config
  (statusPidFile table exe files (layout.pidFiles config)).or
    ((((livePidsByExe table).get exe).getD []).find? fun pid =>
      (table.lines pid).contains (layout.configFile config))

inductive ProfileState where
  | fuzzing | serverOnly | stopped
  deriving DecidableEq, Repr

def fuzzOption : Text := "-F".toList

def profileState (table : CommandTable) (layout : Layout φ) (files : φ → Option Text)
    (config : Nat) : ProfileState :=
  match profilePid table layout files config with
  | none => .stopped
  | some pid => if (table.lines pid).contains fuzzOption then .fuzzing else .serverOnly

/-- The numbers, and what is shown of each profile. -/
structure StatusReport where
  fuzzing : Nat
  serverOnly : Nat
  stopped : Nat
  lines : List (Nat × ProfileState)

def StatusReport.add (r : StatusReport) (config : Nat) (state : ProfileState) : StatusReport where
  fuzzing := if state = .fuzzing then r.fuzzing + 1 else r.fuzzing
  serverOnly := if state = .serverOnly then r.serverOnly + 1 else r.serverOnly
  stopped := if state = .stopped then r.stopped + 1 else r.stopped
  lines := r.lines ++ [(config, state)]

/-- The loop over `config_ids`. -/
def statusReport (table : CommandTable) (layout : Layout φ) (files : φ → Option Text)
    (configs : List Nat) : StatusReport :=
  configs.foldl (fun r config => r.add config (profileState table layout files config))
    ⟨0, 0, 0, []⟩

/-! ## The numbers -/

/-- The numbers are those of the lines. -/
structure StatusReport.Counts (r : StatusReport) : Prop where
  fuzzing : r.fuzzing = r.lines.countP fun line => decide (line.2 = .fuzzing)
  serverOnly : r.serverOnly = r.lines.countP fun line => decide (line.2 = .serverOnly)
  stopped : r.stopped = r.lines.countP fun line => decide (line.2 = .stopped)
  total : r.fuzzing + r.serverOnly + r.stopped = r.lines.length

theorem StatusReport.Counts.add {r : StatusReport} (h : r.Counts) (config : Nat)
    (state : ProfileState) : (r.add config state).Counts := by
  obtain ⟨hfuzzing, hserverOnly, hstopped, htotal⟩ := h
  unfold StatusReport.add
  constructor
  · simp only [hfuzzing, List.countP_append, List.countP_singleton]
    cases state <;> rfl
  · simp only [hserverOnly, List.countP_append, List.countP_singleton]
    cases state <;> rfl
  · simp only [hstopped, List.countP_append, List.countP_singleton]
    cases state <;> rfl
  · simp only [List.length_append, List.length_singleton, ← htotal]
    cases state <;> simp <;> omega

/-- Each profile has its line. -/
theorem statusReport_spec (table : CommandTable) (layout : Layout φ) (files : φ → Option Text)
    (configs : List Nat) :
    (statusReport table layout files configs).lines =
        configs.map (fun config => (config, profileState table layout files config))
      ∧ (statusReport table layout files configs).Counts := by
  unfold statusReport
  induction configs using List.reverseRecOn with
  | nil => exact ⟨rfl, rfl, rfl, rfl, rfl⟩
  | append_singleton configs config ih =>
      rw [List.foldl_append, List.foldl_cons, List.foldl_nil]
      refine ⟨?_, ih.2.add _ _⟩
      rw [StatusReport.add, ih.1, List.map_append, List.map_singleton]

/-! ## The processes -/

section Processes

variable {table : CommandTable} {layout : Layout φ} {files : φ → Option Text} {config : Nat}

/-- The first PID file that names a process of the profile is taken. -/
theorem statusPidFile_spec {exe : Text} (hne : exe ≠ []) (entries : List φ) :
    (∀ pid, statusPidFile table exe files entries = some pid → Runs table.toProcessTable pid exe) ∧
    (statusPidFile table exe files entries = none ↔
      ∀ entry ∈ entries, ∀ content, files entry = some content →
        ¬ Runs table.toProcessTable (readWord content) exe) := by
  fun_induction statusPidFile table exe files entries with
  | case1 => simp
  | case2 entry entries hfile ih =>
      refine ⟨ih.1, ?_⟩
      simp [hfile, ih.2]
  | case3 entry entries content hfile pid hnumber ih =>
      have hnot : ¬ Runs table.toProcessTable (readWord content) exe :=
        fun hruns => hruns.isNumber hnumber
      refine ⟨ih.1, ?_⟩
      simp [hfile, ih.2, hnot]
  | case4 entry entries content hfile pid hnumber hrunning =>
      have hruns := (running_iff hne).mp hrunning
      refine ⟨?_, ?_⟩
      · rintro _ ⟨⟩
        exact hruns
      · refine iff_of_false (Option.some_ne_none _) fun hnone => ?_
        exact hnone entry List.mem_cons_self content hfile hruns
  | case5 entry entries content hfile pid hnumber hrunning ih =>
      have hnot : ¬ Runs table.toProcessTable (readWord content) exe :=
        fun hruns => hrunning ((running_iff hne).mpr hruns)
      refine ⟨ih.1, ?_⟩
      simp [hfile, ih.2, hnot]

theorem get_addLivePid (pids : AssocMap Text (List Text)) (p : LiveProcess) {exe : Text}
    (hne : exe ≠ []) : ((addLivePid pids p).get exe).getD [] = (pids.get exe).getD [] ++
      if actualExe p.exe = exe then [Text.ofNat p.pid] else [] := by
  unfold addLivePid
  dsimp only
  rcases eq_or_ne (actualExe p.exe) exe with rfl | hother
  · rw [if_neg hne, AssocMap.get_set_self, if_pos rfl, Option.getD_some]
  · rw [if_neg hother, List.append_nil]
    split
    · rfl
    · rw [AssocMap.get_set_of_ne _ hother.symm]

/-- By induction over the processes, from the end. -/
theorem get_livePidsByExe {exe : Text} (hne : exe ≠ []) :
    ((livePidsByExe table).get exe).getD [] =
      (table.processes.filter fun p => decide (actualExe p.exe = exe)).map fun p =>
        Text.ofNat p.pid := by
  unfold livePidsByExe
  generalize table.processes = processes
  induction processes using List.reverseRecOn with
  | nil => rfl
  | append_singleton processes p ih =>
      rw [List.foldl_append, List.foldl_cons, List.foldl_nil, get_addLivePid _ _ hne, ih,
        List.filter_append, List.map_append, List.filter_singleton]
      by_cases hexe : actualExe p.exe = exe <;> simp [hexe]

/-- The process was started with the configuration file of the profile. -/
def Configured (table : CommandTable) (layout : Layout φ) (config : Nat) (p : LiveProcess) : Prop :=
  layout.configFile config ∈ table.lines (Text.ofNat p.pid)

/-- Who is shown is a process of the profile. -/
theorem profilePid_runs {pid : Text} (h : profilePid table layout files config = some pid) :
    Runs table.toProcessTable pid (layout.expectedExe config) := by
  have hne := expectedExe_ne_nil layout config
  rcases Option.or_eq_some_iff.mp h with hfile | ⟨-, hlive⟩
  · exact (statusPidFile_spec hne _).1 pid hfile
  · rw [get_livePidsByExe hne] at hlive
    obtain ⟨p, hp, rfl⟩ := List.mem_map.mp (List.mem_of_find?_eq_some hlive)
    obtain ⟨hmem, hexe⟩ := List.mem_filter.mp hp
    exact ⟨p, hmem, rfl, of_decide_eq_true hexe⟩

theorem profilePid_eq_none_iff : profilePid table layout files config = none ↔
    (∀ entry ∈ layout.pidFiles config, ∀ content, files entry = some content →
      ¬ Runs table.toProcessTable (readWord content) (layout.expectedExe config)) ∧
    ∀ p ∈ table.processes, actualExe p.exe = layout.expectedExe config →
      ¬ Configured table layout config p := by
  have hne := expectedExe_ne_nil layout config
  unfold profilePid
  rw [Option.or_eq_none_iff, (statusPidFile_spec hne _).2, get_livePidsByExe hne,
    List.find?_eq_none]
  refine and_congr_right fun _ => ⟨fun h p hp hexe hconfigured => ?_, fun h pid hpid hlines => ?_⟩
  · unfold Configured at hconfigured
    exact h _ (List.mem_map_of_mem (List.mem_filter.mpr ⟨hp, decide_eq_true hexe⟩))
      (List.contains_iff_mem.mpr hconfigured)
  · obtain ⟨p, hp, rfl⟩ := List.mem_map.mp hpid
    obtain ⟨hmem, hexe⟩ := List.mem_filter.mp hp
    have hconfigured : layout.configFile config ∈ table.lines (Text.ofNat p.pid) :=
      List.contains_iff_mem.mp hlines
    exact h p hmem (of_decide_eq_true hexe) hconfigured

/-- A process is shown to fuzz if it has the option. -/
theorem profileState_running (h : profileState table layout files config ≠ .stopped) :
    ∃ pid, Runs table.toProcessTable pid (layout.expectedExe config)
      ∧ (profileState table layout files config = .fuzzing ↔ fuzzOption ∈ table.lines pid) := by
  unfold profileState at h ⊢
  split at h
  · exact absurd rfl h
  · next pid hpid =>
      refine ⟨pid, profilePid_runs hpid, ?_⟩
      rw [← List.contains_iff_mem]
      cases (table.lines pid).contains fuzzOption <;> simp

theorem profileState_eq_stopped_iff : profileState table layout files config = .stopped ↔
    profilePid table layout files config = none := by
  unfold profileState
  split
  · next hnone => exact iff_of_true rfl hnone
  · next pid hpid =>
      refine iff_of_false ?_ (by rw [hpid]; exact Option.some_ne_none _)
      split <;> exact ProfileState.noConfusion

theorem statusReport_lines {configs : List Nat} {state : ProfileState}
    (h : (config, state) ∈ (statusReport table layout files configs).lines) :
    state = profileState table layout files config := by
  rw [(statusReport_spec table layout files configs).1] at h
  obtain ⟨c, -, heq⟩ := List.mem_map.mp h
  obtain ⟨rfl, rfl⟩ := Prod.mk.inj heq
  rfl

theorem statusReport_stopped_iff {configs : List Nat} :
    (statusReport table layout files configs).stopped = configs.length ↔
      ∀ config ∈ configs, profileState table layout files config = .stopped := by
  obtain ⟨hlines, hcounts⟩ := statusReport_spec table layout files configs
  have hlength : (statusReport table layout files configs).lines.length = configs.length := by
    rw [hlines, List.length_map]
  rw [hcounts.stopped, ← hlength, List.countP_eq_length, hlines, List.forall_mem_map]
  simp only [decide_eq_true_eq]

end Processes

/-- The lines of the command that `run_fuzzer` starts. -/
def commandLines (layout : Layout φ) (config : Nat) (fuzz : Bool) : List Text :=
  [layout.runDir config ++ "/sbin/lighttpd".toList, "-D".toList, "-f".toList,
    layout.configFile config, "-m".toList, layout.runDir config ++ "/lib".toList]
  ++ if fuzz then [fuzzOption] else []

theorem fuzzOption_mem_commandLines {layout : Layout φ}
    (habsolute : layout.directory.head? = some '/') (config : Nat) (fuzz : Bool) :
    fuzzOption ∈ commandLines layout config fuzz ↔ fuzz = true := by
  have hpath : ∀ rest : Text, fuzzOption ≠ layout.runDir config ++ rest := by
    intro rest heq
    have hhead := congrArg List.head? heq
    unfold Layout.runDir at hhead
    obtain ⟨t, ht⟩ := List.head?_eq_some_iff.mp habsolute
    rw [ht] at hhead
    cases hhead
  unfold commandLines Layout.configFile
  cases fuzz with
  | true => simp
  | false =>
      have hother : fuzzOption ≠ "-D".toList ∧ fuzzOption ≠ "-f".toList
          ∧ fuzzOption ≠ "-m".toList := by decide
      simp only [Bool.false_eq_true, if_false, List.append_nil, List.mem_cons, List.not_mem_nil,
        or_false, hpath, hother]

/-- A profile of which all processes were started by `run.sh` is shown as
it was started. -/
theorem profileState_of_commandLines {table : CommandTable} {layout : Layout φ}
    {files : φ → Option Text} {config : Nat} {fuzz : Bool}
    (habsolute : layout.directory.head? = some '/')
    (hactive : IsActive table.toProcessTable layout config)
    (hlines : ∀ p ∈ table.processes, actualExe p.exe = layout.expectedExe config →
      table.lines (Text.ofNat p.pid) = commandLines layout config fuzz) :
    profileState table layout files config = if fuzz then .fuzzing else .serverOnly := by
  obtain ⟨p, hp, hexe⟩ := hactive
  have hconfigured : Configured table layout config p := by
    unfold Configured
    rw [hlines p hp hexe]
    simp [commandLines]
  unfold profileState
  split
  · next hnone => exact absurd hconfigured ((profilePid_eq_none_iff.mp hnone).2 p hp hexe)
  · next pid hpid =>
      obtain ⟨q, hq, rfl, hqexe⟩ := profilePid_runs hpid
      rw [hlines q hq hqexe]
      simp only [List.contains_iff_mem, fuzzOption_mem_commandLines habsolute]

/-- What the status says of a set of profiles, against the processes, and
against what `build.sh` says of the same profiles. -/
theorem status_report [DecidableEq φ] (table : CommandTable) (layout : Layout φ)
    (files : φ → Option Text) (configs : List Nat) :
    (statusReport table layout files configs).lines.map Prod.fst = configs ∧
    (statusReport table layout files configs).Counts ∧
    (∀ config state, (config, state) ∈ (statusReport table layout files configs).lines →
      (state = .stopped ↔
        (∀ entry ∈ layout.pidFiles config, ∀ content, files entry = some content →
          ¬ Runs table.toProcessTable (readWord content) (layout.expectedExe config)) ∧
        ∀ p ∈ table.processes, actualExe p.exe = layout.expectedExe config →
          ¬ Configured table layout config p) ∧
      (state ≠ .stopped → ∃ pid, Runs table.toProcessTable pid (layout.expectedExe config) ∧
        (state = .fuzzing ↔ fuzzOption ∈ table.lines pid))) ∧
    ((refuseActiveInstances table.toProcessTable layout true configs files).refused = false →
      (statusReport table layout files configs).stopped = configs.length) ∧
    ((∀ config ∈ configs, ∀ p ∈ table.processes, actualExe p.exe = layout.expectedExe config →
        Configured table layout config p) →
      (statusReport table layout files configs).stopped = configs.length →
      (refuseActiveInstances table.toProcessTable layout true configs files).refused = false) ∧
    (∀ fuzz config state, layout.directory.head? = some '/' →
      (config, state) ∈ (statusReport table layout files configs).lines →
      IsActive table.toProcessTable layout config →
      (∀ p ∈ table.processes, actualExe p.exe = layout.expectedExe config →
        table.lines (Text.ofNat p.pid) = commandLines layout config fuzz) →
      state = if fuzz then .fuzzing else .serverOnly) := by
  have hactive := (refuseActiveInstances_spec table.toProcessTable layout configs files).1
  obtain ⟨hreport, hcounts⟩ := statusReport_spec table layout files configs
  refine ⟨?_, hcounts, fun config state h => ?_, fun hrefused => ?_, fun hconfigured hall => ?_,
    fun fuzz config state habsolute h hrunning hlines => ?_⟩
  · rw [hreport, List.map_map]
    exact List.map_id configs
  · rw [statusReport_lines h]
    exact ⟨profileState_eq_stopped_iff.trans profilePid_eq_none_iff, profileState_running⟩
  · rw [statusReport_stopped_iff]
    intro config hconfig
    rw [profileState_eq_stopped_iff, Option.eq_none_iff_forall_ne_some]
    intro pid hpid
    obtain ⟨p, hp, -, hexe⟩ := profilePid_runs hpid
    have hyes := hactive.mpr ⟨config, hconfig, p, hp, hexe⟩
    rw [hrefused] at hyes
    cases hyes
  · rw [← Bool.not_eq_true, hactive]
    rintro ⟨config, hconfig, p, hp, hexe⟩
    have hnone := profileState_eq_stopped_iff.mp (statusReport_stopped_iff.mp hall config hconfig)
    exact (profilePid_eq_none_iff.mp hnone).2 p hp hexe (hconfigured config hconfig p hp hexe)
  · rw [statusReport_lines h]
    exact profileState_of_commandLines habsolute hrunning hlines

/-- One process of configuration 1, as `run.sh` starts it. -/
def demoCommands : CommandTable where
  toProcessTable := oneProcess 7 (plainLayout.executable 1)
  lines := fun _ => commandLines plainLayout 1 true

/-- Configuration 1 is shown to fuzz, and configuration 2 to be stopped. -/
theorem status_report_demo :
    profileState demoCommands plainLayout (fun _ => none) 1 = .fuzzing
    ∧ profileState demoCommands plainLayout (fun _ => none) 2 = .stopped
    ∧ (statusReport demoCommands plainLayout (fun _ => none) [1, 2]).Counts := by
  obtain ⟨-, hcounts, hstopped, -, -, hstarted⟩ :=
    status_report demoCommands plainLayout (fun _ => none) [1, 2]
  have hlines : ∀ config ∈ [1, 2], (config, profileState demoCommands plainLayout (fun _ => none)
      config) ∈ (statusReport demoCommands plainLayout (fun _ => none) [1, 2]).lines := by
    simp [statusReport, StatusReport.add]
  refine ⟨?_, ?_, hcounts⟩
  · refine hstarted true 1 _ rfl (hlines 1 (by decide)) ⟨_, List.mem_singleton_self _, rfl⟩ ?_
    intro p hp _
    rw [List.mem_singleton.mp hp]
    rfl
  · refine (hstopped 2 _ (hlines 2 (by decide))).1.mpr ⟨fun _ _ _ h => (nomatch h), ?_⟩
    intro p hp hexe
    rw [List.mem_singleton.mp hp] at hexe
    exact absurd hexe (by decide)

end LighttpdFuzz

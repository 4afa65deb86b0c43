import LighttpdFuzz.AssocMap
import LighttpdFuzz.PyText

/-!
# Active profiles

Before it builds or stages anything, `build.sh` refuses if a server of one
of the profiles is running. `refuse_active_instances` looks at the PID files
first and removes the stale ones; for the profiles that it has not found
this way it goes through `/proc` once and notes one process for each
executable it is looking for.

What it finds depends on the processes only: a PID file that is accepted
names a process of the profile (`running_iff`), and a profile that no PID
file resolves is looked for in the pass (`ResolveInv.covered`), which finds
a process if there is one (`scanProc_isSome_iff`).

The shell compares the texts that `$(...)` gives, without trailing newlines.
-/

namespace LighttpdFuzz

/-! ## Processes and paths -/

/-- A process the user may signal and inspect, with the target of its
`/proc/PID/exe`. -/
structure LiveProcess where
  pid : Nat
  exe : Text

/-- The processes, in the order of the glob. -/
structure ProcessTable where
  processes : List LiveProcess
  distinct : (processes.map LiveProcess.pid).Nodup
  /-- `kill -0` succeeds; it may do so for other texts than the ids. -/
  signals : Text → Bool
  signals_pid : ∀ p ∈ processes, signals (Text.ofNat p.pid) = true

/-- What `$(...)` gives of an output. -/
def captured (output : Text) : Text := output.rdropWhile (· == '\n')

def deletedSuffix : Text := " (deleted)".toList

/-- `${exe% (deleted)}` -/
def withoutDeleted (exe : Text) : Text :=
  if deletedSuffix <:+ exe then exe.take (exe.length - deletedSuffix.length) else exe

/-- `actual_exe`, from the target of the link. -/
def actualExe (exe : Text) : Text := withoutDeleted (captured exe)

/-- The target of `/proc/$pid/exe`, empty if there is none. The names under
`/proc` are the ids without leading zeros. -/
def ProcessTable.readlink (table : ProcessTable) (pid : Text) : Text :=
  match table.processes.find? fun p => Text.ofNat p.pid = pid with
  | some p => p.exe
  | none => []

/-- Where the profiles are. -/
structure Layout (φ : Type) where
  directory : Text
  /-- `realpath -m` -/
  realpath : Text → Text
  realpath_absolute : ∀ path, (realpath path).head? = some '/'
  /-- The directory entry that a path leads to. -/
  entry : Text → φ

variable {φ : Type}

def Layout.runDir (layout : Layout φ) (config : Nat) : Text :=
  layout.directory ++ "/run/run_".toList ++ Text.ofNat config

/-- The resolved path of the server of a profile. -/
def Layout.executable (layout : Layout φ) (config : Nat) : Text :=
  layout.realpath (layout.runDir config ++ "/sbin/lighttpd".toList)

/-- `expected_exe` -/
def Layout.expectedExe (layout : Layout φ) (config : Nat) : Text :=
  captured (layout.executable config)

theorem expectedExe_ne_nil (layout : Layout φ) (config : Nat) : layout.expectedExe config ≠ [] := by
  have habsolute : (layout.executable config).head? = some '/' := layout.realpath_absolute _
  rw [Layout.expectedExe, captured]
  intro hnil
  have hall := List.rdropWhile_eq_nil_iff.mp hnil
  have hslash := hall '/' (List.mem_of_head? habsolute)
  cases hslash

/-- `"$run_dir/run.pid" "$run_dir/lighttpd.pid"` -/
def Layout.pidFiles (layout : Layout φ) (config : Nat) : List φ :=
  [layout.entry (layout.runDir config ++ "/run.pid".toList),
   layout.entry (layout.runDir config ++ "/lighttpd.pid".toList)]

/-! ## The PID files -/

/-- The regular files, and what has been written to the standard error. -/
structure PidState (φ : Type) where
  files : φ → Option Text
  stderr : List Text

/-- Some files have gone, each of them one that may go with this content. -/
def Cleaned (mayGo : φ → Text → Prop) (files files' : φ → Option Text) : Prop :=
  ∀ entry, files' entry = files entry ∨
    files' entry = none ∧ ∃ content, files entry = some content ∧ mayGo entry content

theorem Cleaned.refl {mayGo : φ → Text → Prop} (files : φ → Option Text) :
    Cleaned mayGo files files := fun _ => .inl rfl

theorem Cleaned.trans {mayGo : φ → Text → Prop} {files files' files'' : φ → Option Text}
    (h : Cleaned mayGo files files') (h' : Cleaned mayGo files' files'') :
    Cleaned mayGo files files'' := by
  intro entry
  rcases h entry with hsame | ⟨hgone, content, hcontent, hmay⟩
  · rw [← hsame]
    exact h' entry
  · refine .inr ⟨?_, content, hcontent, hmay⟩
    rcases h' entry with hsame' | ⟨hgone', -⟩
    · rw [hsame', hgone]
    · exact hgone'

theorem Cleaned.mono {mayGo mayGo' : φ → Text → Prop} {files files' : φ → Option Text}
    (h : Cleaned mayGo files files') (himp : ∀ entry content, mayGo entry content →
      mayGo' entry content) : Cleaned mayGo' files files' := fun entry =>
  (h entry).imp_right fun ⟨hgone, content, hcontent, hmay⟩ =>
    ⟨hgone, content, hcontent, himp entry content hmay⟩

/-- `rm -f` -/
def PidState.remove [DecidableEq φ] (s : PidState φ) (entry : φ) : PidState φ :=
  { s with files := fun e => if e = entry then none else s.files e }

def PidState.warn (s : PidState φ) (line : Text) : PidState φ :=
  { s with stderr := s.stderr ++ [line] }

/-- `$(sed -n '1p' "$pid_file")`; the shell drops NUL characters. -/
def firstLine (content : Text) : Text :=
  (content.takeWhile (· != '\n')).filter fun c => c.toNat != 0

/-- The loop of `pid_from_files`, with the id that it prints. -/
def pidFromFilesLoop [DecidableEq φ] (table : ProcessTable) (expected : Text) (config : Nat) :
    List φ → PidState φ → Option Text × PidState φ
  | [], s => (none, s)
  | entry :: entries, s =>
      match s.files entry with
      | none => pidFromFilesLoop table expected config entries s
      | some content =>
          let pid := firstLine content
          if pid = [] ∨ pid.any (fun c => !c.isDigit) then
            pidFromFilesLoop table expected config entries (s.remove entry)
          else if table.signals pid ∧ actualExe (table.readlink pid) = expected then (some pid, s)
          else
            let line := "Ignoring stale PID file for config ".toList ++ Text.ofNat config
              ++ ": ".toList ++ pid
            pidFromFilesLoop table expected config entries ((s.warn line).remove entry)

/-- `pid_from_files` -/
def pidFromFiles [DecidableEq φ] (table : ProcessTable) (layout : Layout φ) (config : Nat)
    (s : PidState φ) : Option Text × PidState φ :=
  pidFromFilesLoop table (layout.expectedExe config) config (layout.pidFiles config) s

/-! ## The check -/

/-- What the loop over the PID files has found. -/
structure Resolution (φ : Type) where
  activePids : AssocMap Nat Text
  unresolvedExes : AssocMap Text Nat
  state : PidState φ

def resolveConfig [DecidableEq φ] (table : ProcessTable) (layout : Layout φ) (r : Resolution φ)
    (config : Nat) : Resolution φ :=
  let found := pidFromFiles table layout config r.state
  match found.1 with
  | some pid => { r with activePids := r.activePids.set config pid, state := found.2 }
  | none =>
      { r with
        unresolvedExes := r.unresolvedExes.set (layout.expectedExe config) 1
        state := found.2 }

/-- The pass over `/proc`: one process for each executable. -/
def scanProcess (unresolvedExes : AssocMap Text Nat) (foundPids : AssocMap Text Text)
    (p : LiveProcess) : AssocMap Text Text :=
  let actual := actualExe p.exe
  if actual = [] then foundPids
  else if unresolvedExes.get actual = none then foundPids
  else if foundPids.get actual ≠ none then foundPids
  else foundPids.set actual (Text.ofNat p.pid)

/-- `found_pids` -/
def scanProc (table : ProcessTable) (scan : Bool) (unresolvedExes : AssocMap Text Nat) :
    AssocMap Text Text :=
  if scan = true ∧ unresolvedExes.keys ≠ [] then
    table.processes.foldl (scanProcess unresolvedExes) .empty
  else .empty

/-- The id that is listed for a profile, if one is. -/
def listedPid (layout : Layout φ) (r : Resolution φ) (foundPids : AssocMap Text Text)
    (config : Nat) : Option Text :=
  (r.activePids.get config).or (foundPids.get (layout.expectedExe config))

/-- What `refuse_active_instances` returns and leaves behind. -/
structure Refusal (φ : Type) where
  refused : Bool
  active : List (Nat × Text)
  state : PidState φ

def refusalLines (active : List (Nat × Text)) : List Text :=
  ["Refusing to build or stage active lighttpd profiles: ".toList
    ++ Text.join [' '] (active.map fun e => Text.ofNat e.1 ++ [':'] ++ e.2),
   "Stop their run.sh supervisor first; no running process was signalled.".toList]

/-- `refuse_active_instances` -/
def refuseActiveInstances [DecidableEq φ] (table : ProcessTable) (layout : Layout φ) (scan : Bool)
    (configs : List Nat) (files : φ → Option Text) : Refusal φ :=
  let r := configs.foldl (resolveConfig table layout) ⟨.empty, .empty, ⟨files, []⟩⟩
  let foundPids := scanProc table scan r.unresolvedExes
  let active := configs.filterMap fun config =>
    (listedPid layout r foundPids config).map fun pid => (config, pid)
  if active = [] then ⟨false, [], r.state⟩
  else ⟨true, active, { r.state with stderr := r.state.stderr ++ refusalLines active }⟩

/-! ## What a PID file can name -/

/-- `pid` is the id of a process with this executable. -/
def Runs (table : ProcessTable) (pid exe : Text) : Prop :=
  ∃ p ∈ table.processes, pid = Text.ofNat p.pid ∧ actualExe p.exe = exe

theorem readlink_eq {table : ProcessTable} {p : LiveProcess} (h : p ∈ table.processes) :
    table.readlink (Text.ofNat p.pid) = p.exe := by
  cases hfind : table.processes.find? fun q => Text.ofNat q.pid = Text.ofNat p.pid with
  | none => exact absurd (decide_eq_true rfl) (List.find?_eq_none.mp hfind p h)
  | some q =>
      have hfound := List.find?_some hfind
      have hpid : q.pid = p.pid := Text.ofNat_injective (of_decide_eq_true hfound)
      have hsame : q = p :=
        List.inj_on_of_nodup_map table.distinct (List.mem_of_find?_eq_some hfind) h hpid
      rw [ProcessTable.readlink, hfind, hsame]

/-- The test of a PID file succeeds exactly on the ids of such processes. -/
theorem running_iff {table : ProcessTable} {pid exe : Text} (hne : exe ≠ []) :
    table.signals pid = true ∧ actualExe (table.readlink pid) = exe ↔ Runs table pid exe := by
  constructor
  · rintro ⟨-, hexe⟩
    unfold ProcessTable.readlink at hexe
    split at hexe
    · next p hfind =>
        have hfound := List.find?_some hfind
        have hpid : Text.ofNat p.pid = pid := of_decide_eq_true hfound
        exact ⟨p, List.mem_of_find?_eq_some hfind, hpid.symm, hexe⟩
    · exact absurd hexe.symm hne
  · rintro ⟨p, hp, rfl, hexe⟩
    exact ⟨table.signals_pid p hp, by rw [readlink_eq hp, hexe]⟩

theorem Runs.isNumber {table : ProcessTable} {pid exe : Text} (h : Runs table pid exe) :
    ¬ (pid = [] ∨ pid.any (fun c => !c.isDigit) = true) := by
  obtain ⟨p, -, rfl, -⟩ := h
  rintro (hnil | hany)
  · exact Nat.toDigits_ne_nil hnil
  · obtain ⟨c, hc, hdigit⟩ := List.any_eq_true.mp hany
    rw [Text.isDigit_ofNat hc] at hdigit
    cases hdigit

theorem Cleaned.remove [DecidableEq φ] {mayGo : φ → Text → Prop} {s : PidState φ} {entry : φ}
    {content : Text} (hcontent : s.files entry = some content) (hmay : mayGo entry content) :
    Cleaned mayGo s.files (s.remove entry).files := by
  intro e
  rcases eq_or_ne e entry with rfl | hne
  · exact .inr ⟨if_pos rfl, content, hcontent, hmay⟩
  · exact .inl (if_neg hne)

/-- What the loop accepts is the id of a process with the executable, and
what it removes is not. -/
theorem pidFromFilesLoop_spec [DecidableEq φ] {table : ProcessTable} {exe : Text} (hne : exe ≠ [])
    (config : Nat) (entries : List φ) (s : PidState φ) :
    (∀ pid, (pidFromFilesLoop table exe config entries s).1 = some pid → Runs table pid exe)
      ∧ Cleaned (fun entry content => entry ∈ entries ∧ ¬ Runs table (firstLine content) exe)
        s.files (pidFromFilesLoop table exe config entries s).2.files := by
  fun_induction pidFromFilesLoop table exe config entries s with
  | case1 s => exact ⟨by rintro _ ⟨⟩, .refl _⟩
  | case2 entry entries s hfile ih =>
      refine ⟨ih.1, ih.2.mono ?_⟩
      exact fun e content h => ⟨List.mem_cons_of_mem _ h.1, h.2⟩
  | case3 entry entries s content hfile pid hnumber ih =>
      refine ⟨ih.1, (Cleaned.remove hfile ?_).trans (ih.2.mono ?_)⟩
      · exact ⟨List.mem_cons_self, fun hruns => hruns.isNumber hnumber⟩
      · exact fun e content h => ⟨List.mem_cons_of_mem _ h.1, h.2⟩
  | case4 entry entries s content hfile pid hnumber hrunning =>
      refine ⟨?_, .refl _⟩
      rintro _ ⟨⟩
      exact (running_iff hne).mp hrunning
  | case5 entry entries s content hfile pid hnumber hrunning line ih =>
      have hwarn : (s.warn line).files entry = some content := hfile
      refine ⟨ih.1, (Cleaned.remove hwarn ?_).trans (ih.2.mono ?_)⟩
      · exact ⟨List.mem_cons_self, fun hruns => hrunning ((running_iff hne).mpr hruns)⟩
      · exact fun e content h => ⟨List.mem_cons_of_mem _ h.1, h.2⟩

/-! ## The loop over the profiles -/

/-- What the first loop keeps, with the profiles it has gone through. -/
structure ResolveInv (table : ProcessTable) (layout : Layout φ) (files : φ → Option Text)
    (done : List Nat) (r : Resolution φ) : Prop where
  runs : ∀ config pid, r.activePids.get config = some pid →
    Runs table pid (layout.expectedExe config)
  /-- A profile that is not resolved is looked for. -/
  covered : ∀ config ∈ done, r.activePids.get config = none →
    r.unresolvedExes.get (layout.expectedExe config) ≠ none
  cleaned : Cleaned (fun entry content => ∃ config ∈ done, entry ∈ layout.pidFiles config
    ∧ ¬ Runs table (firstLine content) (layout.expectedExe config)) files r.state.files

theorem ResolveInv.step [DecidableEq φ] {table : ProcessTable} {layout : Layout φ}
    {files : φ → Option Text} {done : List Nat} {r : Resolution φ}
    (h : ResolveInv table layout files done r) (config : Nat) :
    ResolveInv table layout files (done ++ [config]) (resolveConfig table layout r config) := by
  obtain ⟨hruns, hcleaned⟩ := @pidFromFilesLoop_spec φ _ table _ (expectedExe_ne_nil layout config)
    config (layout.pidFiles config) r.state
  have hfiles : Cleaned (fun entry content => ∃ c ∈ done ++ [config],
      entry ∈ layout.pidFiles c ∧ ¬ Runs table (firstLine content) (layout.expectedExe c)) files
      (pidFromFiles table layout config r.state).2.files := by
    refine (h.cleaned.mono ?_).trans (hcleaned.mono ?_)
    · rintro entry content ⟨c, hc, hmay⟩
      exact ⟨c, List.mem_append_left _ hc, hmay⟩
    · exact fun entry content hmay =>
        ⟨config, List.mem_append_right _ (List.mem_singleton_self config), hmay⟩
  have hold : ∀ c ∈ done ++ [config], c ≠ config → c ∈ done := fun c hc hne =>
    (List.mem_append.mp hc).resolve_right fun hlast => hne (List.mem_singleton.mp hlast)
  rw [resolveConfig]
  cases hfound : (pidFromFiles table layout config r.state).1 with
  | some pid =>
      dsimp only
      refine ⟨fun c pid' hget => ?_, fun c hc hnone => ?_, hfiles⟩
      · rw [AssocMap.get_set] at hget
        split at hget
        · next heq =>
            subst heq
            exact hruns pid' (hfound.trans hget)
        · exact h.runs c pid' hget
      · rw [AssocMap.get_set] at hnone
        split at hnone
        · cases hnone
        · next hne => exact h.covered c (hold c hc hne) hnone
  | none =>
      dsimp only
      refine ⟨h.runs, fun c hc hnone => ?_, hfiles⟩
      rw [AssocMap.get_set]
      split
      · exact Option.some_ne_none 1
      · next hne => exact h.covered c (hold c hc fun heq => hne (heq ▸ rfl)) hnone

theorem resolveInv_foldl [DecidableEq φ] {table : ProcessTable} {layout : Layout φ}
    {files : φ → Option Text} (configs : List Nat) :
    ResolveInv table layout files configs
      (configs.foldl (resolveConfig table layout) ⟨.empty, .empty, ⟨files, []⟩⟩) := by
  induction configs using List.reverseRecOn with
  | nil => exact ⟨by rintro _ _ ⟨⟩, List.forall_mem_nil _, .refl _⟩
  | append_singleton done config ih =>
      rw [List.foldl_append]
      exact ih.step config

/-! ## The pass over `/proc` -/

/-- The id of the first process with an executable. -/
def firstPid (processes : List LiveProcess) (exe : Text) : Option Text :=
  (processes.find? fun p => actualExe p.exe = exe).map fun p => Text.ofNat p.pid

theorem get_scanProcess (unresolvedExes : AssocMap Text Nat) (foundPids : AssocMap Text Text)
    (p : LiveProcess) {exe : Text} (hne : exe ≠ []) :
    (scanProcess unresolvedExes foundPids p).get exe
      = if foundPids.get exe = none ∧ unresolvedExes.get exe ≠ none ∧ actualExe p.exe = exe then
          some (Text.ofNat p.pid)
        else foundPids.get exe := by
  rw [scanProcess]
  rcases eq_or_ne (actualExe p.exe) exe with rfl | hother
  · rw [if_neg hne]
    split_ifs with hnone hsome <;> simp_all
  · have hnot : ¬ (foundPids.get exe = none ∧ unresolvedExes.get exe ≠ none
        ∧ actualExe p.exe = exe) := fun h => hother h.2.2
    rw [if_neg hnot]
    split_ifs
    · rfl
    · rfl
    · rfl
    · exact AssocMap.get_set_of_ne _ hother.symm _

/-- By induction over the processes: the pass notes the first process with
each executable that is looked for. -/
theorem get_scan (unresolvedExes : AssocMap Text Nat) {exe : Text} (hne : exe ≠ [])
    (hwanted : unresolvedExes.get exe ≠ none) :
    ∀ (processes : List LiveProcess) (foundPids : AssocMap Text Text),
      (processes.foldl (scanProcess unresolvedExes) foundPids).get exe
        = (foundPids.get exe).or (firstPid processes exe)
  | [], foundPids => (Option.or_none).symm
  | p :: processes, foundPids => by
      rw [List.foldl_cons, get_scan unresolvedExes hne hwanted processes,
        get_scanProcess unresolvedExes foundPids p hne]
      rw [firstPid, firstPid, List.find?_cons]
      cases hfound : foundPids.get exe with
      | some pid => simp
      | none =>
          by_cases hexe : actualExe p.exe = exe
          · simp [hexe, hwanted]
          · simp [hexe]

theorem get_scanProc {table : ProcessTable} {unresolvedExes : AssocMap Text Nat} {exe : Text}
    (hne : exe ≠ []) (hwanted : unresolvedExes.get exe ≠ none) :
    (scanProc table true unresolvedExes).get exe = firstPid table.processes exe := by
  have hkeys : unresolvedExes.keys ≠ [] := by
    intro hnil
    refine hwanted (AssocMap.get_eq_none_iff.mpr ?_)
    rw [hnil]
    exact List.not_mem_nil
  rw [scanProc, if_pos ⟨rfl, hkeys⟩, get_scan unresolvedExes hne hwanted]
  rfl

/-! ## The result -/

/-- Some process has the executable of the profile. -/
def IsActive (table : ProcessTable) (layout : Layout φ) (config : Nat) : Prop :=
  ∃ p ∈ table.processes, actualExe p.exe = layout.expectedExe config

instance (table : ProcessTable) (layout : Layout φ) :
    DecidablePred (IsActive table layout) := fun config =>
  inferInstanceAs (Decidable (∃ p ∈ table.processes, actualExe p.exe = layout.expectedExe config))

theorem ResolveInv.listed_runs {table : ProcessTable} {layout : Layout φ}
    {files : φ → Option Text} {configs : List Nat} {r : Resolution φ}
    (h : ResolveInv table layout files configs r) {config : Nat} (hc : config ∈ configs)
    {pid : Text}
    (hpid : listedPid layout r (scanProc table true r.unresolvedExes) config = some pid) :
    Runs table pid (layout.expectedExe config) := by
  unfold listedPid at hpid
  cases hactive : r.activePids.get config with
  | some pid' =>
      rw [hactive, Option.some_or] at hpid
      exact h.runs config pid (hactive.trans hpid)
  | none =>
      rw [hactive, Option.none_or, get_scanProc (expectedExe_ne_nil layout config)
        (h.covered config hc hactive), firstPid, Option.map_eq_some_iff] at hpid
      obtain ⟨p, hfind, rfl⟩ := hpid
      have hexe := List.find?_some hfind
      exact ⟨p, List.mem_of_find?_eq_some hfind, rfl, of_decide_eq_true hexe⟩

theorem ResolveInv.listed_isSome_iff {table : ProcessTable} {layout : Layout φ}
    {files : φ → Option Text} {configs : List Nat} {r : Resolution φ}
    (h : ResolveInv table layout files configs r) {config : Nat} (hc : config ∈ configs) :
    (listedPid layout r (scanProc table true r.unresolvedExes) config).isSome = true
      ↔ IsActive table layout config := by
  constructor
  · intro hsome
    obtain ⟨pid, hpid⟩ := Option.isSome_iff_exists.mp hsome
    obtain ⟨p, hp, -, hexe⟩ := h.listed_runs hc hpid
    exact ⟨p, hp, hexe⟩
  · rintro ⟨p, hp, hexe⟩
    unfold listedPid
    cases hactive : r.activePids.get config with
    | some pid => rfl
    | none =>
        rw [Option.none_or, get_scanProc (expectedExe_ne_nil layout config)
          (h.covered config hc hactive), firstPid, Option.isSome_map, List.find?_isSome]
        exact ⟨p, hp, decide_eq_true hexe⟩

/-- The lines of a list that a partial function is defined on. -/
theorem map_fst_filterMap {α β : Type} (g : α → Option β) (l : List α) :
    (l.filterMap fun a => (g a).map fun b => (a, b)).map Prod.fst
      = l.filter fun a => (g a).isSome := by
  induction l with
  | nil => rfl
  | cons a l ih =>
      rw [List.filterMap_cons, List.filter_cons]
      cases g a with
      | none => exact ih
      | some b => exact congrArg (a :: ·) ih

/-- The profiles that are listed, and the files that are left, in terms of
the processes. -/
theorem refuseActiveInstances_spec [DecidableEq φ] (table : ProcessTable) (layout : Layout φ)
    (configs : List Nat) (files : φ → Option Text) :
    ((refuseActiveInstances table layout true configs files).refused = true
        ↔ ∃ config ∈ configs, IsActive table layout config)
      ∧ (refuseActiveInstances table layout true configs files).active.map Prod.fst
        = configs.filter (IsActive table layout)
      ∧ (∀ e ∈ (refuseActiveInstances table layout true configs files).active,
        Runs table e.2 (layout.expectedExe e.1))
      ∧ Cleaned (fun entry content => ∃ config ∈ configs, entry ∈ layout.pidFiles config
          ∧ ¬ Runs table (firstLine content) (layout.expectedExe config)) files
        (refuseActiveInstances table layout true configs files).state.files := by
  have hinv : ResolveInv table layout files configs _ := resolveInv_foldl configs
  generalize hr : configs.foldl (resolveConfig table layout) ⟨.empty, .empty, ⟨files, []⟩⟩ = r
    at hinv
  generalize hnoted : listedPid layout r (scanProc table true r.unresolvedExes) = noted
  have hruns : ∀ e ∈ configs.filterMap fun config => (noted config).map fun pid => (config, pid),
      Runs table e.2 (layout.expectedExe e.1) := by
    intro e he
    obtain ⟨config, hc, hmem⟩ := List.mem_filterMap.mp he
    obtain ⟨pid, hpid, rfl⟩ := Option.map_eq_some_iff.mp hmem
    exact hinv.listed_runs hc (hnoted ▸ hpid)
  have hmap : (configs.filterMap fun config => (noted config).map fun pid => (config, pid)).map
      Prod.fst = configs.filter (IsActive table layout) := by
    rw [map_fst_filterMap]
    refine List.filter_congr fun config hc => ?_
    rw [Bool.eq_iff_iff, decide_eq_true_iff, ← hnoted]
    exact hinv.listed_isSome_iff hc
  rw [refuseActiveInstances, hr, hnoted]
  by_cases hnil : (configs.filterMap fun config => (noted config).map fun pid => (config, pid)) = []
  · rw [if_pos hnil]
    rw [hnil, List.map_nil] at hmap
    refine ⟨iff_of_false Bool.false_ne_true ?_, hmap, List.forall_mem_nil _, hinv.cleaned⟩
    rintro ⟨config, hc, hactive⟩
    exact List.filter_eq_nil_iff.mp hmap.symm config hc (decide_eq_true hactive)
  · rw [if_neg hnil]
    refine ⟨iff_of_true rfl ?_, hmap, hruns, hinv.cleaned⟩
    obtain ⟨e, he⟩ := List.exists_mem_of_ne_nil _ hnil
    have hmem := List.mem_map_of_mem (f := Prod.fst) he
    rw [hmap, List.mem_filter, decide_eq_true_iff] at hmem
    exact ⟨e.1, hmem⟩

/-- The check refuses exactly if some process has, as the shell reads it, the
executable of one of the profiles, and lists the profiles for which there is
one, each with the id of one. The PID files make no difference to this, and
one is removed only if its first line is not the id of a process with the
executable of its profile. -/
theorem active_profiles [DecidableEq φ] (table : ProcessTable) (layout : Layout φ)
    (configs : List Nat) (files : φ → Option Text) :
    ((refuseActiveInstances table layout true configs files).refused = true
        ↔ ∃ config ∈ configs, IsActive table layout config)
      ∧ (refuseActiveInstances table layout true configs files).active.map Prod.fst
        = configs.filter (IsActive table layout)
      ∧ (∀ e ∈ (refuseActiveInstances table layout true configs files).active,
        Runs table e.2 (layout.expectedExe e.1))
      ∧ (∀ files',
        (refuseActiveInstances table layout true configs files').refused
            = (refuseActiveInstances table layout true configs files).refused
          ∧ (refuseActiveInstances table layout true configs files').active.map Prod.fst
            = (refuseActiveInstances table layout true configs files).active.map Prod.fst)
      ∧ Cleaned (fun entry content => ∃ config ∈ configs, entry ∈ layout.pidFiles config
          ∧ ¬ Runs table (firstLine content) (layout.expectedExe config)) files
        (refuseActiveInstances table layout true configs files).state.files := by
  obtain ⟨hrefused, hlisted, hruns, hcleaned⟩ :=
    refuseActiveInstances_spec table layout configs files
  refine ⟨hrefused, hlisted, hruns, fun files' => ?_, hcleaned⟩
  obtain ⟨hrefused', hlisted', -, -⟩ := refuseActiveInstances_spec table layout configs files'
  exact ⟨Bool.eq_iff_iff.mpr (hrefused'.trans hrefused.symm), hlisted'.trans hlisted.symm⟩

/-! ## Where the shell reads less than there is -/

/-- No links, and each path an entry of its own. -/
def plainLayout : Layout Text where
  directory := "/s".toList
  realpath path := '/' :: path.dropWhile (· == '/')
  realpath_absolute _ := rfl
  entry path := path

def oneProcess (pid : Nat) (exe : Text) : ProcessTable where
  processes := [⟨pid, exe⟩]
  distinct := List.nodup_singleton pid
  signals _ := true
  signals_pid _ _ := rfl

/-- A process whose executable has a newline at the end of its name is taken
for one of the profile, and a PID file with a leading zero is removed though
its number is the id of a process of the profile. -/
theorem trailing_newline_and_leading_zero :
    ((refuseActiveInstances (oneProcess 7 (plainLayout.executable 1 ++ ['\n'])) plainLayout true [1]
        fun _ => none).refused = true
      ∧ ∀ p ∈ (oneProcess 7 (plainLayout.executable 1 ++ ['\n'])).processes,
        withoutDeleted p.exe ≠ plainLayout.executable 1)
    ∧ ((refuseActiveInstances (oneProcess 123 (plainLayout.executable 1)) plainLayout true [1]
        fun entry => if entry = "/s/run/run_1/run.pid".toList then some "0123".toList
          else none).state.files "/s/run/run_1/run.pid".toList = none
      ∧ Nat.ofDigitChars 10 (firstLine "0123".toList) 0 = 123
      ∧ ∀ p ∈ (oneProcess 123 (plainLayout.executable 1)).processes,
        p.pid = 123 ∧ withoutDeleted p.exe = plainLayout.executable 1) := by
  decide

end LighttpdFuzz

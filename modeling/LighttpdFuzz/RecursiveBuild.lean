import LighttpdFuzz.ConfigDiscovery

/-!
# The builds that a build starts

To build all configurations, `build.sh` starts itself once for each, with
the settings it has been given. A child that its parent has approved does
not look at every process again; it believes the approval only if the
process above it is this script, building everything.

`child_settings` says that a child comes to the settings of its parent,
and `parentConfig_eq` that it reads the parent's command line as the parent
does. So below a build of everything, and nowhere else, the children are
approved (`recursive_build`).
-/

namespace LighttpdFuzz

/-! ## Options -/

/-- The variables that the options set. -/
structure BuildOptions where
  patch : Bool
  config : Text
  approvedRecursiveChild : Bool
  buildInit : Bool
  buildDirectory : Bool
  rebuildDirectory : Bool
  jobs : Text

def BuildOptions.initial : BuildOptions where
  patch := true
  config := "all".toList
  approvedRecursiveChild := false
  buildInit := false
  buildDirectory := true
  rebuildDirectory := false
  jobs := "1".toList

/-- `${arg#*=}` -/
def afterEquals (arg : Text) : Text := (arg.dropWhile (· ≠ '=')).drop 1

/-- `--config=* | -c=*` -/
def isConfigOption (arg : Text) : Bool :=
  decide ("--config=".toList <+: arg) || decide ("-c=".toList <+: arg)

/-- `--jobs=* | -j=*` -/
def isJobsOption (arg : Text) : Bool :=
  decide ("--jobs=".toList <+: arg) || decide ("-j=".toList <+: arg)

/-- `-j[0-9]*` -/
def isShortJobsOption (arg : Text) : Bool :=
  decide ("-j".toList <+: arg) && ((arg.drop 2).head?.any Char.isDigit)

/-- The `case` of the second loop over the arguments. -/
def BuildOptions.read (o : BuildOptions) (arg : Text) : BuildOptions :=
  if arg = "--directory".toList ∨ arg = "-d".toList then { o with buildDirectory := true }
  else if arg = "--rebuild-directory".toList ∨ arg = "-r".toList then
    { o with rebuildDirectory := true, buildDirectory := true }
  else if arg = "--init".toList ∨ arg = "-i".toList then { o with buildInit := true }
  else if arg = "--jobs".toList ∨ arg = "-j".toList then { o with jobs := "10".toList }
  else if isJobsOption arg then { o with jobs := afterEquals arg }
  else if isShortJobsOption arg then { o with jobs := arg.drop 2 }
  else if arg = "--no_patch".toList ∨ arg = "--no-patch".toList ∨ arg = "-p".toList then
    { o with patch := false }
  else if isConfigOption arg then { o with config := afterEquals arg }
  else if arg = "--approved-recursive-child".toList then { o with approvedRecursiveChild := true }
  else o

/-- The arguments that end the script in the first loop. -/
def endsScript (arg : Text) : Bool :=
  decide (arg = "--help".toList ∨ arg = "-h".toList ∨ arg = "--bootstrap-toolchain".toList)

/-- What governs a build. -/
structure BuildSettings where
  patch : Bool
  config : Text
  approvedRecursiveChild : Bool
  buildInit : Bool
  buildDirectory : Bool
  rebuildDirectory : Bool
  jobs : Nat
  deriving DecidableEq

/-- `^[0-9]{1,5}$`, and not zero. -/
def readJobs (jobs : Text) : Option Nat :=
  if 1 ≤ jobs.length ∧ jobs.length ≤ 5 ∧ jobs.all Char.isDigit then
    let number := Nat.ofDigitChars 10 jobs 0
    if number = 0 then none else some number
  else none

def isAll (config : Text) : Bool := decide (config = "a".toList ∨ config = "all".toList)

/-- The settings that the arguments give, if the script goes on with them. -/
def readSettings (configIds : List Nat) (args : List Text) : Option BuildSettings :=
  if args.any endsScript then none
  else
    let o := args.foldl BuildOptions.read .initial
    match readJobs o.jobs with
    | none => none
    | some jobs =>
        if isAll o.config || validConfig configIds o.config then
          some
            { patch := o.patch
              config := o.config
              approvedRecursiveChild := o.approvedRecursiveChild
              buildInit := o.buildInit
              buildDirectory := o.buildDirectory
              rebuildDirectory := o.rebuildDirectory
              jobs := jobs }
        else none

/-! ## Children -/

/-- The arguments of the child that builds `config`. -/
def childArgs (settings : BuildSettings) (config : Nat) : List Text :=
  ["--approved-recursive-child".toList, "--config=".toList ++ Text.ofNat config]
    ++ (if settings.rebuildDirectory then ["--rebuild-directory".toList]
      else if settings.buildDirectory then ["--directory".toList] else [])
    ++ (if 1 < settings.jobs then ["--jobs=".toList ++ Text.ofNat settings.jobs] else [])
    ++ (if settings.patch then [] else ["--no_patch".toList])

/-- `BUILD_PARENT_APPROVAL` -/
def parentApproval (pid : Nat) (config : Text) : Text := Text.ofNat pid ++ ':' :: config

/-- A process as `/proc` shows it. -/
structure ProcessImage where
  cmdline : List Text
  cwd : Text

/-- What follows from a relative path and a working directory. -/
def absolute (cwd path : Text) : Text :=
  if path.head? = some '/' then path else cwd ++ '/' :: path

/-- The last loop of `approved_all_build_parent`. -/
def parentConfig (args : List Text) : Text :=
  args.foldl (fun config arg => if isConfigOption arg then afterEquals arg else config)
    "all".toList

section Approval

variable (realpath : Text → Text)

/-- `approved_all_build_parent`, in a script that was started as `script`
in `cwd`; there is no image of a process that cannot be read. -/
def approvedAllBuildParent (script cwd : Text) (parent : Option ProcessImage) : Bool :=
  match parent with
  | none => false
  | some image =>
      match image.cmdline with
      | _ :: parentScript :: args =>
          image.cwd ≠ [] && realpath (absolute image.cwd parentScript)
              = realpath (absolute cwd script)
            && isAll (parentConfig args)
      | _ => false

/-- `scan_proc`, for a build of one configuration. -/
def scanProcFlag (script cwd : Text) (settings : BuildSettings) (approval : Text) (ppid : Nat)
    (parent : Option ProcessImage) : Bool :=
  !(settings.approvedRecursiveChild && approval = parentApproval ppid settings.config
    && approvedAllBuildParent realpath script cwd parent)

end Approval

/-! ## Reading options -/

theorem read_approved (o : BuildOptions) :
    o.read "--approved-recursive-child".toList = { o with approvedRecursiveChild := true } := rfl

theorem read_config (o : BuildOptions) (config : Text) :
    o.read ("--config=".toList ++ config) = { o with config := config } := rfl

theorem read_jobs (o : BuildOptions) (jobs : Text) :
    o.read ("--jobs=".toList ++ jobs) = { o with jobs := jobs } := rfl

theorem read_rebuild (o : BuildOptions) : o.read "--rebuild-directory".toList
    = { o with rebuildDirectory := true, buildDirectory := true } := rfl

theorem read_directory (o : BuildOptions) :
    o.read "--directory".toList = { o with buildDirectory := true } := rfl

theorem read_noPatch (o : BuildOptions) :
    o.read "--no_patch".toList = { o with patch := false } := rfl

theorem isConfigOption_eq_true {arg : Text} (h : isConfigOption arg = true) :
    ∃ config, arg = "--config=".toList ++ config ∨ arg = "-c=".toList ++ config := by
  rcases Bool.or_eq_true_iff.mp h with h | h
  · obtain ⟨config, rfl⟩ := of_decide_eq_true h
    exact ⟨config, .inl rfl⟩
  · obtain ⟨config, rfl⟩ := of_decide_eq_true h
    exact ⟨config, .inr rfl⟩

/-- The configuration is set by `--config` only, whatever the order of the
patterns. -/
theorem config_read (o : BuildOptions) (arg : Text) :
    (o.read arg).config = if isConfigOption arg then afterEquals arg else o.config := by
  cases h : isConfigOption arg with
  | true =>
      obtain ⟨config, rfl | rfl⟩ := isConfigOption_eq_true h
      · rfl
      · rfl
  | false =>
      simp only [BuildOptions.read, h, Bool.false_eq_true, if_false]
      split_ifs <;> rfl

/-- A child reads the arguments of its parent as the parent does. -/
theorem parentConfig_eq (args : List Text) :
    parentConfig args = (args.foldl BuildOptions.read .initial).config := by
  have hfold : ∀ o : BuildOptions, (args.foldl BuildOptions.read o).config
      = args.foldl (fun config arg => if isConfigOption arg then afterEquals arg else config)
        o.config := by
    induction args with
    | nil => exact fun _ => rfl
    | cons arg args ih =>
        intro o
        rw [List.foldl_cons, List.foldl_cons, ih, config_read]
  exact (hfold .initial).symm

theorem buildDirectory_read {o : BuildOptions} (h : o.buildDirectory = true) (arg : Text) :
    (o.read arg).buildDirectory = true := by
  unfold BuildOptions.read
  split_ifs <;> first | exact h | rfl

theorem buildDirectory_foldl (args : List Text) : ∀ o : BuildOptions, o.buildDirectory = true →
    (args.foldl BuildOptions.read o).buildDirectory = true := by
  induction args with
  | nil => exact fun _ h => h
  | cons arg args ih => exact fun o h => ih _ (buildDirectory_read h arg)

/-! ## Numbers of jobs -/

theorem readJobs_eq_some {jobs : Text} {n : Nat} (h : readJobs jobs = some n) :
    0 < n ∧ n < 10 ^ 5 := by
  unfold readJobs at h
  split at h
  · next hjobs =>
      obtain ⟨-, hlength, hdigits⟩ := hjobs
      have hlt := Text.ofDigitChars_lt (List.all_eq_true.mp hdigits)
      have hpow : 10 ^ jobs.length ≤ 10 ^ 5 := Nat.pow_le_pow_right (by omega) hlength
      dsimp only at h
      split at h
      · cases h
      · next hzero =>
          rw [← Option.some.inj h]
          omega
  · cases h

theorem readJobs_ofNat {n : Nat} (hpos : 0 < n) (hlt : n < 10 ^ 5) :
    readJobs (Text.ofNat n) = some n := by
  have hlength : (Text.ofNat n).length ≤ 5 :=
    (Nat.length_toDigits_le_iff (by decide) (by decide)).mpr hlt
  have hne : 1 ≤ (Text.ofNat n).length := Nat.length_toDigits_pos
  have hvalue : Nat.ofDigitChars 10 (Text.ofNat n) 0 = n := Nat.ofDigitChars_ten_toDigits
  rw [readJobs, if_pos ⟨hne, hlength, List.all_eq_true.mpr fun c hc => Text.isDigit_ofNat hc⟩,
    hvalue]
  exact if_neg (Nat.pos_iff_ne_zero.mp hpos)

/-! ## The settings of a child -/

variable {configIds : List Nat} {args : List Text} {settings : BuildSettings} {config : Nat}

/-- What can be said of the settings of any build. -/
theorem readSettings_spec (h : readSettings configIds args = some settings) :
    settings.buildDirectory = true ∧ settings.config = parentConfig args
      ∧ 0 < settings.jobs ∧ settings.jobs < 10 ^ 5 := by
  unfold readSettings at h
  split at h
  · cases h
  · dsimp only at h
    split at h
    · cases h
    · next jobs hjobs =>
        split at h
        · rw [← Option.some.inj h, parentConfig_eq]
          exact ⟨buildDirectory_foldl args .initial rfl, rfl, readJobs_eq_some hjobs⟩
        · cases h

theorem foldl_childArgs (hdirectory : settings.buildDirectory = true) (config : Nat) :
    (childArgs settings config).foldl BuildOptions.read .initial =
      { patch := settings.patch
        config := Text.ofNat config
        approvedRecursiveChild := true
        buildInit := false
        buildDirectory := true
        rebuildDirectory := settings.rebuildDirectory
        jobs := if 1 < settings.jobs then Text.ofNat settings.jobs else "1".toList } := by
  obtain ⟨patch, _, _, _, _, rebuildDirectory, jobs⟩ := settings
  obtain rfl := hdirectory
  unfold childArgs
  simp only [List.foldl_append, List.foldl_cons, List.foldl_nil, read_approved, read_config]
  by_cases hjobs : 1 < jobs <;> cases rebuildDirectory <;> cases patch <;>
    simp only [hjobs, if_true, if_false, Bool.false_eq_true, List.foldl_cons, List.foldl_nil,
      read_rebuild, read_directory, read_jobs, read_noPatch] <;> rfl

theorem not_endsScript_childArgs : (childArgs settings config).any endsScript = false := by
  unfold childArgs
  split_ifs <;> rfl

/-- A child builds its configuration as the parent has been told to. -/
theorem child_settings (h : readSettings configIds args = some settings)
    (hconfig : config ∈ configIds) :
    readSettings configIds (childArgs settings config) = some
      { settings with
        config := Text.ofNat config
        approvedRecursiveChild := true
        buildInit := false } := by
  obtain ⟨hdirectory, -, hpos, hlt⟩ := readSettings_spec h
  have hjobs : readJobs (if 1 < settings.jobs then Text.ofNat settings.jobs else "1".toList)
      = some settings.jobs := by
    split
    · exact readJobs_ofNat hpos hlt
    · have hone : settings.jobs = 1 := by omega
      rw [hone]
      rfl
  have hvalid : validConfig configIds (Text.ofNat config) = true :=
    validConfig_iff.mpr ⟨config, hconfig, rfl⟩
  rw [readSettings, not_endsScript_childArgs, foldl_childArgs hdirectory]
  simp only [Bool.false_eq_true, if_false, hjobs, hvalid, Bool.or_true, if_true, hdirectory]

/-! ## Who is approved -/

/-- A build of everything starts children with its own settings, which are
approved and do not look at every process again; a child of any other
build is not approved, whatever it is told. -/
theorem recursive_build (realpath : Text → Text) {interpreter script cwd : Text}
    (hcwd : cwd ≠ []) (h : readSettings configIds args = some settings) (pid : Nat) :
    (isAll settings.config = true → ∀ config ∈ configIds,
      ∃ child, readSettings configIds (childArgs settings config) = some child
        ∧ child = { settings with
          config := Text.ofNat config
          approvedRecursiveChild := true
          buildInit := false }
        ∧ scanProcFlag realpath script cwd child (parentApproval pid (Text.ofNat config)) pid
          (some ⟨interpreter :: script :: args, cwd⟩) = false)
    ∧ (isAll settings.config = false → ∀ (script' cwd' approval : Text) (child : BuildSettings),
      scanProcFlag realpath script' cwd' child approval pid
        (some ⟨interpreter :: script :: args, cwd⟩) = true) := by
  obtain ⟨-, hconfig, -⟩ := readSettings_spec h
  constructor
  · intro hall config hmem
    refine ⟨_, child_settings h hmem, rfl, ?_⟩
    rw [hconfig] at hall
    simp [scanProcFlag, approvedAllBuildParent, hall, hcwd]
  · intro hone script' cwd' approval child
    rw [hconfig] at hone
    simp [scanProcFlag, approvedAllBuildParent, hone]

/-- `./build.sh -j4 -p`, with two configurations. -/
theorem recursive_build_demo : ∃ child,
    readSettings [1, 2] ["--approved-recursive-child".toList, "--config=2".toList,
      "--directory".toList, "--jobs=4".toList, "--no_patch".toList] = some child
    ∧ child.jobs = 4 ∧ child.patch = false
    ∧ scanProcFlag id "./build.sh".toList "/w".toList child "7:2".toList 7
      (some ⟨["bash".toList, "./build.sh".toList, "-j4".toList, "-p".toList], "/w".toList⟩)
        = false := by
  have h : readSettings [1, 2] ["-j4".toList, "-p".toList]
    = some ⟨false, "all".toList, false, false, true, false, 4⟩ := rfl
  obtain ⟨child, hchild, rfl, hscan⟩ :=
    (recursive_build id (List.cons_ne_nil '/' ['w']) h 7).1 rfl 2 (by simp)
  exact ⟨_, hchild, rfl, rfl, hscan⟩

end LighttpdFuzz

import LighttpdFuzz.BuildFigures

/-!
# The verdict of the build checker

The exit status, in terms of the config file and of what inspecting the
artifacts gave: a run passes when nothing went wrong and every unit meets
the mode that the last section in force gives each check. With it comes
the report, whose figures count what their labels say.
-/

namespace LighttpdFuzz

open PosixPath

variable (fnmatchcase : Text → Text → Bool)

/-- Neither discovery nor any inspection went wrong. -/
def BuildWorld.Clean (world : BuildWorld) (cfg : BuildConfig) : Prop :=
  world.discoveryErrors cfg = [] ∧ ∀ e ∈ (world.artifacts cfg).entries,
    ∃ units, world.inspect e.1 e.2 = .ok units ∧ ∀ unit ∈ units, unit.isError = false

/-- Every evidence unit meets every check. -/
def BuildWorld.Conforms (world : BuildWorld) (config : IniFile) (cfg : BuildConfig) : Prop :=
  ∀ e ∈ (world.artifacts cfg).entries, ∀ units, world.inspect e.1 e.2 = .ok units →
    ∀ unit ∈ units, ∀ evidence, unit.outcome = .evidence evidence → ∀ check,
      policyFailed (givenMode fnmatchcase config (relative world.base e.1) unit.member check)
        (detect check evidence).1 = false

variable {fnmatchcase} {printable : Char → Bool} {config : IniFile} {cfg : BuildConfig}
  {world : BuildWorld}

/-! ## The exit status -/

theorem errors_eq_nil_iff : (world.finalState fnmatchcase cfg).errors = [] ↔ world.Clean cfg := by
  obtain ⟨added, hadded, hlength⟩ := (@finalState_accounts fnmatchcase world cfg).1.errors
  rw [hadded, List.append_eq_nil_iff, BuildWorld.Clean]
  refine and_congr_right fun _ => ?_
  rw [← List.length_eq_zero_iff, hlength, List.countP_eq_zero, BuildWorld.units, namedUnits]
  simp only [List.mem_flatMap, List.mem_map, BuildWorld.inspected, Bool.not_eq_true]
  constructor
  · intro h e he
    cases hinspect : world.inspect e.1 e.2 with
    | error message =>
        have herror := h (relative world.base e.1, ⟨[], .error message⟩)
          ⟨_, ⟨e, he, rfl⟩, ⟨[], .error message⟩,
            by rw [hinspect]; exact List.mem_singleton_self _, rfl⟩
        cases herror
    | ok units =>
        refine ⟨units, rfl, fun unit hunit => ?_⟩
        exact h (relative world.base e.1, unit)
          ⟨_, ⟨e, he, rfl⟩, unit, by rw [hinspect]; exact hunit, rfl⟩
  · rintro h u ⟨a, ⟨e, he, rfl⟩, unit, hunit, rfl⟩
    obtain ⟨units, hinspect, hunits⟩ := h e he
    rw [hinspect] at hunit
    exact hunits unit hunit

theorem failures_eq_zero_iff (hload : loadConfig printable config = .ok cfg) :
    (world.finalState fnmatchcase cfg).failures = 0
      ↔ world.Conforms fnmatchcase config cfg := by
  rw [(@accounting fnmatchcase printable config cfg world hload).failures, List.countP_eq_zero,
    BuildWorld.Conforms, BuildWorld.inspected]
  simp only [List.mem_map, List.any_eq_true, not_exists, not_and, Bool.not_eq_true]
  constructor
  · intro h e he units hinspect unit hunit evidence hevidence check
    have hbreaks := h _ ⟨e, he, rfl⟩ unit (by rw [hinspect]; exact hunit) check
      (Check.mem_all check)
    rw [breaks, hevidence] at hbreaks
    exact hbreaks
  · rintro h _ ⟨e, he, rfl⟩ unit hunit check -
    cases hinspect : world.inspect e.1 e.2 with
    | error message =>
        rw [hinspect, unitsOf, List.mem_singleton] at hunit
        subst hunit
        rfl
    | ok units =>
        rw [hinspect] at hunit
        unfold breaks
        split
        · next evidence hevidence =>
            exact h e he units hinspect unit hunit evidence hevidence check
        · rfl

theorem exitStatus_iff (s : ReportState) :
    (exitStatus s = 0 ↔ s.errors = [] ∧ s.failures = 0)
      ∧ (exitStatus s = 2 ↔ ¬ s.errors = [])
      ∧ (exitStatus s = 1 ↔ s.errors = [] ∧ ¬ s.failures = 0) := by
  unfold exitStatus
  by_cases herrors : s.errors = []
  · by_cases hfailures : s.failures = 0 <;> simp [herrors, hfailures]
  · simp [herrors]

/-- A run whose config loads and whose report can be written returns 0
exactly when nothing went wrong and every evidence unit meets, for every
check, the mode of the last section in force that mentions it; 2 when
anything went wrong; and 1 otherwise. The figures are what their labels
say, and the report shows them. -/
theorem build_verdict (hconfig : world.config = .ok config)
    (hload : loadConfig world.printable config = .ok cfg) (hreadelf : world.hasReadelf = true)
    (houtput : checkOutput (world.output cfg) = .ok ())
    (hwrite : world.write (world.report fnmatchcase cfg) = .ok ()) :
    (world.main fnmatchcase = 0 ↔ world.Clean cfg ∧ world.Conforms fnmatchcase config cfg)
      ∧ (world.main fnmatchcase = 2 ↔ ¬ world.Clean cfg)
      ∧ (world.main fnmatchcase = 1
        ↔ world.Clean cfg ∧ ¬ world.Conforms fnmatchcase config cfg)
      ∧ BuildAccounting fnmatchcase world config cfg (world.finalState fnmatchcase cfg)
      ∧ ReportShows fnmatchcase world config cfg (world.report fnmatchcase cfg) := by
  have hmain : world.main fnmatchcase = exitStatus (world.finalState fnmatchcase cfg) := by
    simp only [BuildWorld.main, hconfig, hload, hreadelf, houtput, hwrite, Bool.not_true,
      Bool.false_eq_true, if_false]
  obtain ⟨hpass, herror, hfail⟩ := exitStatus_iff (world.finalState fnmatchcase cfg)
  rw [errors_eq_nil_iff, failures_eq_zero_iff hload] at hpass hfail
  rw [errors_eq_nil_iff] at herror
  rw [hmain]
  exact ⟨hpass, herror, hfail, accounting hload, report_shows hload⟩

/-- A glob with at most a leading star. -/
def leadingStar (name pattern : Text) : Bool :=
  match pattern with
  | '*' :: ending => decide (ending <:+ name)
  | _ => decide (name = pattern)

/-- ASan everywhere but in what ends in `b.o`. -/
def demoConfig : IniFile where
  hasDefaults := false
  sections :=
    ⟨[("scan".toList, ⟨[("object_dirs".toList, "out".toList),
        ("exclude".toList, "*skip.o".toList)], by decide⟩),
      ("checks".toList, ⟨[("asan".toList, "present".toList)], by decide⟩),
      ("checks:*b.o".toList, ⟨[("asan".toList, "forbid".toList)], by decide⟩)], by decide⟩

/-- What `demoConfig` is loaded as. -/
def demoLoaded : BuildConfig where
  objects := ["out".toList]
  binaries := []
  excludes := ["*skip.o".toList]
  modes := ⟨[("asan".toList, .present)], by decide⟩
  overrides := [("*b.o".toList, ⟨[("asan".toList, .absent)], by decide⟩)]
  report := "build-report.md".toList

theorem loadConfig_demo : loadConfig (fun _ => true) demoConfig = .ok demoLoaded := by rfl

def demoObject : Resolved := ⟨["w".toList, "out".toList, "a.o".toList], by decide⟩

def demoNested : Resolved := ⟨["w".toList, "out".toList, "sub".toList, "b.o".toList], by decide⟩

/-- Two objects; the first has the references. -/
def demoWorld (references : List Text) : BuildWorld where
  printable _ := true
  config := .ok demoConfig
  configPath := "/w/check-build.ini".toList
  base := ⟨["w".toList], by decide⟩
  hasReadelf := true
  artifacts _ := ⟨[(demoObject, .object), (demoNested, .object)], by decide⟩
  discoveryErrors _ := []
  inspect path _ :=
    .ok [⟨[], .evidence ⟨if path = demoObject then references else [], .empty, [], true⟩⟩]
  output _ := ⟨"build-report.md".toList, "build-report.md".toList, false, none⟩
  write _ := .ok ()

theorem clean_demo (references : List Text) : (demoWorld references).Clean demoLoaded :=
  ⟨rfl, fun _ _ => ⟨_, rfl, fun _ hunit => by rw [List.mem_singleton.mp hunit]; rfl⟩⟩

/-- The path rule turns `present` into `absent` for the second object. The
first one fails where it has no reference, which the report shows. -/
theorem build_verdict_demo : (demoWorld ["__asan_init".toList]).main leadingStar = 0
    ∧ (demoWorld []).main leadingStar = 1
    ∧ "| asan               | varies   | [1](#asan)                       |            1 |".toList
      ∈ (demoWorld []).report leadingStar demoLoaded := by
  have hverdict : ∀ references, _ := fun references =>
    @build_verdict leadingStar demoConfig demoLoaded (demoWorld references) rfl loadConfig_demo
      rfl rfl rfl
  refine ⟨(hverdict _).1.mpr ⟨clean_demo _, ?_⟩, (hverdict _).2.2.1.mpr ⟨clean_demo _, ?_⟩,
    (hverdict []).2.2.2.2.failureCounts.subset ?_⟩
  · intro e he units hunits unit hunit evidence hevidence check
    cases hunits
    obtain rfl := List.mem_singleton.mp hunit
    cases hevidence
    rcases List.mem_cons.mp he with rfl | he
    · cases check <;> rfl
    · obtain rfl := List.mem_singleton.mp he
      cases check <;> rfl
  · intro hconforms
    have hfails := hconforms (demoObject, .object) List.mem_cons_self _ rfl _ List.mem_cons_self _
      rfl .asan
    exact absurd hfails (by decide +kernel)
  · exact List.mem_append_right _ (List.mem_map.mpr ⟨.asan, by decide, by decide +kernel⟩)

end LighttpdFuzz

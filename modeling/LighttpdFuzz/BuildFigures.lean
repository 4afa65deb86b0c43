import LighttpdFuzz.BuildAccounts
import Mathlib.Data.List.Perm.Basic

/-!
# The figures of the build report

What the report counts, in terms of the config file and of what inspecting
the artifacts gave. The loops end with these counts (`accounting`), and
the lines of the report show them (`report_shows`): the two lines at its
head, the two tables, the sections of the failures, the heading of the
errors, the lists of files and the summary of the checks.
-/

namespace LighttpdFuzz

open PosixPath

variable (fnmatchcase : Text → Text → Bool)

/-- A unit of the file `name` breaks what the config gives for a check. -/
def breaks (config : IniFile) (name : Text) (unit : BuildUnit) (check : Check) : Bool :=
  match unit.outcome with
  | .evidence evidence =>
      policyFailed (givenMode fnmatchcase config name unit.member check) (detect check evidence).1
  | _ => false

/-- All units of a run, each with the name of its file. -/
def BuildWorld.units (world : BuildWorld) (cfg : BuildConfig) : List (Text × BuildUnit) :=
  namedUnits world.base (world.inspected cfg)

/-- The modes that the evidence units are given for a check; without such a
unit, the base mode. -/
def BuildWorld.givenModes (world : BuildWorld) (config : IniFile) (cfg : BuildConfig)
    (check : Check) : List PolicyMode :=
  let modes := ((world.units cfg).filter fun u => u.2.isItem).map fun u =>
    givenMode fnmatchcase config u.1 u.2.member check
  if modes = [] then [modeFor cfg.modes check] else modes

def BuildWorld.enforces (world : BuildWorld) (config : IniFile) (cfg : BuildConfig)
    (check : Check) : Bool :=
  (world.givenModes fnmatchcase config cfg check).any fun mode => decide (mode ≠ .ignore)

/-- The figures of the report are what their labels say. -/
structure BuildAccounting (world : BuildWorld) (config : IniFile) (cfg : BuildConfig)
    (s : ReportState) : Prop where
  /-- The state counts of a check add up to the evidence units. -/
  states : ∀ check, (CheckState.all.map (s.counts check)).sum
    = (world.units cfg).countP fun u => u.2.isItem
  /-- "Check items", "failing expectations", "metadata items skipped". -/
  codeItems : s.codeItems = (world.units cfg).countP fun u => u.2.isItem
  failedItems : s.failedItems = (world.units cfg).countP fun u =>
    Check.all.any (breaks fnmatchcase config u.1 u.2)
  skipped : s.skipped = (world.units cfg).countP fun u => u.2.isSkipped
  /-- "Failed items" and "Failed files" of a check. -/
  checkItems : ∀ check, failedItemsOf s check
    = (world.units cfg).countP fun u => breaks fnmatchcase config u.1 u.2 check
  checkFiles : ∀ check, failedFilesOf s check
    = (world.inspected cfg).countP fun a => a.units.any fun unit =>
      breaks fnmatchcase config (relative world.base a.path) unit check
  /-- "inspected", "files failing expectations", "errors". -/
  checked : s.checked
    = (world.inspected cfg).countP fun a => !a.units.any BuildUnit.isError
  failures : s.failures = (world.inspected cfg).countP fun a => a.units.any fun unit =>
    Check.all.any (breaks fnmatchcase config (relative world.base a.path) unit)
  errors : s.errors.length = (world.discoveryErrors cfg).length
    + (world.units cfg).countP fun u => u.2.isError
  /-- The rows per kind of file, and the one for archive members. -/
  kinds : ∀ kind, (s.files kind).length
      = (world.inspected cfg).countP (fun a => decide (a.kind = kind))
    ∧ s.inspectedByKind kind = (world.inspected cfg).countP fun a =>
      decide (a.kind = kind) && !a.units.any BuildUnit.isError
  members : s.membersChecked = (world.units cfg).countP (fun u => u.2.isMember)
    ∧ s.memberErrors = (world.units cfg).countP (fun u => u.2.isMember && u.2.isError)
    ∧ s.membersInspected = (world.units cfg).countP fun u => u.2.isMember && !u.2.isError
  /-- A check is enforced when some evidence unit is given a mode for it
  other than `ignore`; with no evidence unit the base modes decide. -/
  enforced : ∀ check, check ∈ enforced cfg.modes s ↔
    (∃ u ∈ world.units cfg, u.2.isItem = true
      ∧ givenMode fnmatchcase config u.1 u.2.member check ≠ .ignore)
    ∨ (∀ u ∈ world.units cfg, u.2.isItem = false) ∧ modeFor cfg.modes check ≠ .ignore
  /-- So no failure is hidden behind an ignored check. -/
  shown : ∀ u ∈ world.units cfg, ∀ check, breaks fnmatchcase config u.1 u.2 check = true →
    check ∈ LighttpdFuzz.enforced cfg.modes s

/-! ## What the report shows -/

/-- The one mode, if there is no other. -/
def expectedText (modes : List PolicyMode) : Text :=
  match modes.dedup with
  | [mode] => mode.name
  | _ => "varies".toList

/-- A row of a table. -/
def tableRow (cells : List Text) : Text :=
  "| ".toList ++ Text.join " | ".toList cells ++ " |".toList

section Shown

variable (world : BuildWorld) (config : IniFile) (cfg : BuildConfig)

/-- The expectation that is shown for a check. -/
def BuildWorld.expected (check : Check) : Text :=
  expectedText (world.givenModes fnmatchcase config cfg check)

/-- The number of units that fail a check. -/
def BuildWorld.failingUnits (check : Check) : Nat :=
  (world.units cfg).countP fun u => breaks fnmatchcase config u.1 u.2 check

/-- The number of files with a unit that fails a check. -/
def BuildWorld.failingFiles (check : Check) : Nat :=
  (world.inspected cfg).countP fun a => a.units.any fun unit =>
    breaks fnmatchcase config (relative world.base a.path) unit check

/-- The number of errors, of discovery and of inspection. -/
def BuildWorld.errorCount : Nat :=
  (world.discoveryErrors cfg).length + (world.units cfg).countP fun u => u.2.isError

/-- The artifacts of a kind. -/
def BuildWorld.ofKind (kind : ArtifactKind) : List Inspected :=
  (world.inspected cfg).filter fun a => decide (a.kind = kind)

/-- The row of a check; a check that is not enforced has no counts. -/
def BuildWorld.shownFailures (check : Check) : Text :=
  let total := if world.enforces fnmatchcase config cfg check then
      "[".toList ++ Text.ofNat (world.failingFiles fnmatchcase config cfg check) ++ "](#".toList
        ++ check.name ++ ")".toList
    else "-".toList
  let items := if world.enforces fnmatchcase config cfg check then
      Text.ofNat (world.failingUnits fnmatchcase config cfg check)
    else "-".toList
  tableRow [Text.padRight 18 check.name,
    Text.padRight 8 (world.expected fnmatchcase config cfg check), Text.padRight 32 total,
    Text.padLeft 12 items]

/-- A row of the file counts. -/
def shownCounts (label : Text) (checked inspected errors : Nat) : Text :=
  tableRow [Text.padRight 14 label, Text.padLeft 7 (Text.ofNat checked),
    Text.padLeft 9 (Text.ofNat inspected), Text.padLeft 6 (Text.ofNat errors)]

/-- The state counts of a check. -/
def BuildWorld.shownStates (check : Check) : Text :=
  "  ".toList ++ check.name ++ " (expectation: ".toList
    ++ world.expected fnmatchcase config cfg check ++ "): ".toList
    ++ Text.join ", ".toList (CheckState.all.map fun state => state.name ++ "=".toList
      ++ Text.ofNat ((world.units cfg).countP fun u => u.2.inState check state))

/-- The lines of a report show the figures of a run. -/
structure ReportShows (report : List Text) : Prop where
  overview : [
      "Files checked: ".toList ++ Text.ofNat (world.artifacts cfg).entries.length
        ++ "; inspected: ".toList
        ++ Text.ofNat ((world.inspected cfg).countP fun a => !a.units.any BuildUnit.isError)
        ++ "; files failing expectations: ".toList
        ++ Text.ofNat ((world.inspected cfg).countP fun a => a.units.any fun unit =>
          Check.all.any (breaks fnmatchcase config (relative world.base a.path) unit))
        ++ "; errors: ".toList ++ Text.ofNat (world.errorCount cfg),
      "Check items: ".toList ++ Text.ofNat ((world.units cfg).countP fun u => u.2.isItem)
        ++ "; failing expectations: ".toList
        ++ Text.ofNat ((world.units cfg).countP fun u =>
          Check.all.any (breaks fnmatchcase config u.1 u.2))
        ++ "; metadata items skipped: ".toList
        ++ Text.ofNat ((world.units cfg).countP fun u => u.2.isSkipped)] <:+: report
  /-- A row for every check. -/
  failureCounts : [
      "| Check              | Expected | Failed files                     | Failed items |".toList,
      "| ------------------ | -------- | -------------------------------- | ------------ |".toList]
    ++ Check.all.map (world.shownFailures fnmatchcase config cfg) <:+: report
  /-- A row for every kind of file, and one for the archive members. -/
  fileCounts : [
      "| Type           | Checked | Inspected | Errors |".toList,
      "| -------------- | ------- | --------- | ------ |".toList]
    ++ (ArtifactKind.all.map fun kind => shownCounts kind.name (world.ofKind cfg kind).length
      ((world.ofKind cfg kind).countP fun a => !a.units.any BuildUnit.isError)
      ((world.ofKind cfg kind).countP fun a => a.units.any BuildUnit.isError))
    ++ [shownCounts "archive member".toList ((world.units cfg).countP fun u => u.2.isMember)
      ((world.units cfg).countP fun u => u.2.isMember && !u.2.isError)
      ((world.units cfg).countP fun u => u.2.isMember && u.2.isError)] <:+: report
  /-- The head of the failures of every check that is enforced. -/
  failures : ∀ check, world.enforces fnmatchcase config cfg check = true →
    [[], "### ".toList ++ check.name, [],
      "Expected ".toList ++ world.expected fnmatchcase config cfg check ++ ": ".toList
        ++ Text.ofNat (world.failingUnits fnmatchcase config cfg check) ++ " ".toList
        ++ (if world.failingUnits fnmatchcase config cfg check = 1 then "failure".toList
          else "failures".toList), []] <:+: report
  errors : "## Inspection errors (".toList ++ Text.ofNat (world.errorCount cfg) ++ ")".toList
    ∈ report
  /-- The files of every kind, under a title with their number. -/
  inventories : ∀ kind title, (kind, title) ∈ [(ArtifactKind.object, "Objects".toList),
      (.binary, "Binaries".toList), (.archive, "Archives".toList)] →
    [[], "## ".toList ++ title ++ " (".toList ++ Text.ofNat (world.ofKind cfg kind).length
        ++ ")".toList, [], "```text".toList]
      ++ (world.ofKind cfg kind).map (·.path.text) ++ ["```".toList] <:+: report
  /-- The state counts of every check. -/
  summary : ["## Check summary".toList, [], "```text".toList]
    ++ Check.all.map (world.shownStates fnmatchcase config cfg) ++ ["```".toList] <:+: report

end Shown

variable {fnmatchcase} {printable : Char → Bool} {config : IniFile} {cfg : BuildConfig}
  {world : BuildWorld}

/-! ## Failing is breaking what the config gives -/

theorem failsCheck_eq_breaks (hload : loadConfig printable config = .ok cfg) (name : Text)
    (unit : BuildUnit) (check : Check) :
    failsCheck fnmatchcase cfg.modes cfg.overrides name unit check
      = breaks fnmatchcase config name unit check := by
  obtain ⟨member, outcome⟩ := unit
  cases outcome with
  | error _ => rfl
  | skipped _ => rfl
  | evidence evidence =>
      exact congrArg (policyFailed · _) (modeFor_effectiveModes hload name member check)

theorem failsItem_eq_breaks (hload : loadConfig printable config = .ok cfg) (name : Text)
    (unit : BuildUnit) :
    failsItem fnmatchcase cfg.modes cfg.overrides name unit
      = Check.all.any (breaks fnmatchcase config name unit) := by
  unfold failsItem
  congr 1
  funext check
  exact failsCheck_eq_breaks hload name unit check

/-! ## Figures -/

/-- An evidence unit is in exactly one state. -/
theorem sum_inState (check : Check) (units : List (Text × BuildUnit)) :
    (CheckState.all.map fun state => units.countP fun u => u.2.inState check state).sum
      = units.countP fun u => u.2.isItem := by
  induction units with
  | nil => rfl
  | cons u units ih =>
      rw [← List.singleton_append]
      simp only [List.countP_append]
      rw [List.sum_map_add, ih, List.countP_singleton]
      congr 1
      obtain ⟨name, member, outcome⟩ := u
      simp only [List.countP_singleton, BuildUnit.inState, BuildUnit.isItem]
      cases outcome with
      | error _ => rfl
      | skipped _ => rfl
      | evidence evidence =>
          simp only [decide_eq_true_eq]
          generalize (detect check evidence).1 = state
          cases state <;> rfl

/-- Distinct resolved paths have distinct names. -/
theorem nodup_names : ((world.inspected cfg).map fun a => relative world.base a.path).Nodup := by
  have hpaths := (world.artifacts cfg).nodup
  rw [BuildWorld.inspected, List.map_map]
  have hname : ((fun a : Inspected => relative world.base a.path) ∘ fun e =>
      (⟨e.1, e.2, unitsOf (world.inspect e.1 e.2)⟩ : Inspected))
      = relative world.base ∘ Prod.fst := rfl
  rw [hname, ← List.map_map]
  exact hpaths.map (relative_injective world.base)

theorem nodup_failing (check : Check) : (((world.inspected cfg).filter fun a =>
    a.units.any fun unit => breaks fnmatchcase config (relative world.base a.path) unit
      check).map fun a => relative world.base a.path).Nodup :=
  nodup_names.sublist (List.Sublist.map _ List.filter_sublist)

/-- A map that counts names of failing units has one key per failing file. -/
theorem length_failing {check : Check} {m : AssocMap Text (Nat × Text)}
    (hkeys : ∀ name, name ∈ m.keys ↔ name ∈ ((world.units cfg).filter fun u =>
      breaks fnmatchcase config u.1 u.2 check).map Prod.fst) :
    m.entries.length = (world.inspected cfg).countP fun a => a.units.any fun unit =>
      breaks fnmatchcase config (relative world.base a.path) unit check := by
  have hperm : m.keys.Perm (((world.inspected cfg).filter fun a =>
      a.units.any fun unit => breaks fnmatchcase config (relative world.base a.path) unit
        check).map fun a => relative world.base a.path) := by
    rw [List.perm_ext_iff_of_nodup m.nodup_keys (nodup_failing check)]
    intro name
    rw [hkeys, BuildWorld.units, namedUnits]
    simp only [List.mem_map, List.mem_filter, List.mem_flatMap, List.any_eq_true]
    constructor
    · rintro ⟨u, ⟨⟨a, ha, unit, hunit, rfl⟩, hbreaks⟩, rfl⟩
      exact ⟨a, ⟨ha, unit, hunit, hbreaks⟩, rfl⟩
    · rintro ⟨a, ⟨ha, unit, hunit, hbreaks⟩, rfl⟩
      exact ⟨(relative world.base a.path, unit), ⟨⟨a, ha, unit, hunit, rfl⟩, hbreaks⟩, rfl⟩
  have hlength := hperm.length_eq
  rw [AssocMap.keys, List.length_map, List.length_map] at hlength
  rw [hlength, List.countP_eq_length_filter]

theorem finalState_accounts (world : BuildWorld) (cfg : BuildConfig) :
    UnitAccounts fnmatchcase cfg.modes cfg.overrides (world.discoveryErrors cfg)
        (world.units cfg) (world.finalState fnmatchcase cfg)
      ∧ FileAccounts fnmatchcase cfg.modes cfg.overrides world.base (world.inspected cfg)
        (world.finalState fnmatchcase cfg) :=
  accounts_run world.base (world.discoveryErrors cfg) (world.inspected cfg)

theorem isItem_of_breaks {name : Text} {unit : BuildUnit} {check : Check}
    (h : breaks fnmatchcase config name unit check = true) : unit.isItem = true
      ∧ givenMode fnmatchcase config name unit.member check ≠ .ignore := by
  obtain ⟨member, outcome⟩ := unit
  cases outcome with
  | error _ => cases h
  | skipped _ => cases h
  | evidence evidence =>
      refine ⟨rfl, fun hignore => ?_⟩
      rw [breaks, hignore] at h
      cases h

/-- The modes that the report knows of for a check. -/
theorem mem_seenModes (hload : loadConfig printable config = .ok cfg) (check : Check)
    (mode : PolicyMode) :
    mode ∈ seenModes cfg.modes (world.finalState fnmatchcase cfg) check
      ↔ mode ∈ world.givenModes fnmatchcase config cfg check := by
  have hused := (@finalState_accounts fnmatchcase world cfg).1.usedModes check
  simp only [unitMode, modeFor_effectiveModes hload] at hused
  have hgiven : ∀ mode, mode ∈ (world.finalState fnmatchcase cfg).usedModes check
      ↔ mode ∈ ((world.units cfg).filter fun u => u.2.isItem).map fun u =>
        givenMode fnmatchcase config u.1 u.2.member check := by
    intro mode
    simp only [hused, List.mem_map, List.mem_filter, and_assoc]
  unfold seenModes BuildWorld.givenModes
  generalize ((world.units cfg).filter fun u => u.2.isItem).map _ = modes at hgiven
  by_cases hempty : modes = []
  · subst hempty
    have hnone : (world.finalState fnmatchcase cfg).usedModes check = ∅ :=
      Finset.eq_empty_of_forall_notMem fun mode hmode => by cases (hgiven mode).mp hmode
    rw [if_pos hnone, if_pos rfl, Finset.mem_singleton, List.mem_singleton]
  · obtain ⟨mode', hmode'⟩ := List.exists_mem_of_ne_nil modes hempty
    rw [if_neg (Finset.ne_empty_of_mem ((hgiven mode').mpr hmode')), if_neg hempty, hgiven]

theorem givenModes_ne_nil (check : Check) : world.givenModes fnmatchcase config cfg check ≠ [] := by
  unfold BuildWorld.givenModes
  dsimp only
  split
  · exact List.cons_ne_nil _ _
  · assumption

theorem mem_enforced (hload : loadConfig printable config = .ok cfg) (check : Check) :
    check ∈ enforced cfg.modes (world.finalState fnmatchcase cfg)
      ↔ world.enforces fnmatchcase config cfg check = true := by
  rw [enforced, List.mem_filter, and_iff_right (Check.mem_all check), decide_eq_true_iff,
    BuildWorld.enforces, List.any_eq_true]
  have hmem := @mem_seenModes fnmatchcase printable config cfg world hload check
  obtain ⟨mode, hmode⟩ := List.exists_mem_of_ne_nil _
    (@givenModes_ne_nil fnmatchcase config cfg world check)
  constructor
  · intro hne
    by_contra hall
    refine hne (Finset.eq_singleton_iff_unique_mem.mpr ?_)
    have hignore : ∀ mode ∈ world.givenModes fnmatchcase config cfg check, mode = .ignore := by
      intro mode hmode
      by_contra hmode'
      exact hall ⟨mode, hmode, decide_eq_true hmode'⟩
    exact ⟨(hmem _).mpr (hignore mode hmode ▸ hmode), fun m hm => hignore m ((hmem m).mp hm)⟩
  · rintro ⟨m, hm, hne⟩ heq
    have hin := (hmem m).mpr hm
    rw [heq, Finset.mem_singleton] at hin
    exact of_decide_eq_true hne hin

theorem mem_enforced_iff (hload : loadConfig printable config = .ok cfg) (check : Check) :
    check ∈ enforced cfg.modes (world.finalState fnmatchcase cfg) ↔
      (∃ u ∈ world.units cfg, u.2.isItem = true
        ∧ givenMode fnmatchcase config u.1 u.2.member check ≠ .ignore)
      ∨ (∀ u ∈ world.units cfg, u.2.isItem = false) ∧ modeFor cfg.modes check ≠ .ignore := by
  rw [mem_enforced hload, BuildWorld.enforces, List.any_eq_true, BuildWorld.givenModes]
  split
  · next hnone =>
      have hitems : ∀ u ∈ world.units cfg, u.2.isItem = false := by
        simpa [List.filter_eq_nil_iff] using hnone
      constructor
      · rintro ⟨mode, hmode, hne⟩
        rw [List.mem_singleton.mp hmode, decide_eq_true_iff] at hne
        exact .inr ⟨hitems, hne⟩
      · rintro (⟨u, hu, hitem, -⟩ | ⟨-, hmode⟩)
        · rw [hitems u hu] at hitem
          cases hitem
        · exact ⟨_, List.mem_singleton_self _, decide_eq_true hmode⟩
  · next hsome =>
      constructor
      · rintro ⟨mode, hmode, hne⟩
        obtain ⟨u, hu, rfl⟩ := List.mem_map.mp hmode
        obtain ⟨hu, hitem⟩ := List.mem_filter.mp hu
        exact .inl ⟨u, hu, hitem, of_decide_eq_true hne⟩
      · rintro (⟨u, hu, hitem, hne⟩ | ⟨hnone, -⟩)
        · exact ⟨_, List.mem_map_of_mem (List.mem_filter.mpr ⟨hu, hitem⟩), decide_eq_true hne⟩
        · have hnil : (world.units cfg).filter (fun u => u.2.isItem) = [] :=
            List.filter_eq_nil_iff.mpr fun u hu => by rw [hnone u hu]; decide
          rw [hnil] at hsome
          exact absurd rfl hsome

theorem accounting (hload : loadConfig printable config = .ok cfg) :
    BuildAccounting fnmatchcase world config cfg (world.finalState fnmatchcase cfg) := by
  obtain ⟨hunits, hfiles⟩ := @finalState_accounts fnmatchcase world cfg
  have hfails : ∀ u : Text × BuildUnit, ∀ check,
      failsCheck fnmatchcase cfg.modes cfg.overrides u.1 u.2 check
        = breaks fnmatchcase config u.1 u.2 check := fun u check =>
    failsCheck_eq_breaks hload u.1 u.2 check
  exact
    { states := fun check => by
        rw [← sum_inState check]
        exact congrArg List.sum (List.map_congr_left fun state _ => hunits.counts check state)
      codeItems := hunits.codeItems
      failedItems := by
        rw [hunits.failedItems]
        exact congrArg (List.countP · _) (funext fun u => failsItem_eq_breaks hload u.1 u.2)
      skipped := hunits.skipped
      checkItems := fun check => by
        obtain ⟨texts, htexts, hnames⟩ := hunits.failuresByCheck check
        simp only [hfails] at hnames
        rw [failedItemsOf, htexts, AssocMap.total_countAll, List.countP_eq_length_filter]
        simpa using congrArg List.length hnames
      checkFiles := fun check => by
        obtain ⟨texts, htexts, hnames⟩ := hunits.failuresByCheck check
        simp only [hfails] at hnames
        refine length_failing fun name => ?_
        rw [htexts, AssocMap.mem_keys_countAll, hnames]
      checked := hfiles.checked
      failures := by
        rw [hfiles.failures]
        refine congrArg (List.countP · _) (funext fun a => ?_)
        exact congrArg (List.any _) (funext fun unit => failsItem_eq_breaks hload _ unit)
      errors := by
        obtain ⟨added, hadded, hlength⟩ := hunits.errors
        rw [hadded, List.length_append, hlength]
      kinds := fun kind => by
        refine ⟨?_, hfiles.inspectedByKind kind⟩
        rw [hfiles.files, List.length_map, List.countP_eq_length_filter]
      members := ⟨hunits.membersChecked, hunits.memberErrors, hunits.membersInspected⟩
      enforced := mem_enforced_iff hload
      shown := fun u hu check hbreaks => (mem_enforced_iff hload check).mpr
        (.inl ⟨u, hu, isItem_of_breaks hbreaks⟩) }

/-! ## The sections of a report -/

section Sections

variable {configPath base : Text} {artifacts : Nat} {modes : AssocMap Text PolicyMode}
  {s : ReportState}

theorem overview_infix : overview artifacts s <:+: reportLines configPath base artifacts modes s :=
  List.infix_of_mem_flatten (by simp only [List.mem_cons, true_or, or_true])

theorem failureTable_infix :
    failureTable modes s <:+: reportLines configPath base artifacts modes s :=
  List.infix_of_mem_flatten (by simp only [List.mem_cons, true_or, or_true])

theorem fileTable_infix : fileTable s <:+: reportLines configPath base artifacts modes s :=
  List.infix_of_mem_flatten (by simp only [List.mem_cons, true_or, or_true])

theorem checkSummary_infix :
    checkSummary modes s <:+: reportLines configPath base artifacts modes s :=
  List.infix_of_mem_flatten (by simp only [List.mem_cons, true_or, or_true])

theorem failureSection_infix {check : Check} (h : check ∈ enforced modes s) :
    failureSection modes s check <:+: reportLines configPath base artifacts modes s := by
  have hsection : failureSection modes s check
      <:+: (enforced modes s).flatMap (failureSection modes s) := by
    rw [List.flatMap_def]
    exact List.infix_of_mem_flatten (List.mem_map_of_mem h)
  exact hsection.trans
    (List.infix_of_mem_flatten (by simp only [List.mem_cons, true_or, or_true]))

theorem inventory_infix {kind : ArtifactKind} {title : Text}
    (h : (kind, title) ∈ [(ArtifactKind.object, "Objects".toList),
      (.binary, "Binaries".toList), (.archive, "Archives".toList)]) :
    inventory s kind title <:+: reportLines configPath base artifacts modes s := by
  simp only [List.mem_cons, List.not_mem_nil, or_false, Prod.mk.injEq] at h
  rcases h with ⟨rfl, rfl⟩ | ⟨rfl, rfl⟩ | ⟨rfl, rfl⟩
  · exact List.infix_of_mem_flatten (by simp only [List.mem_cons, true_or, or_true])
  · exact List.infix_of_mem_flatten (by simp only [List.mem_cons, true_or, or_true])
  · exact List.infix_of_mem_flatten (by simp only [List.mem_cons, true_or, or_true])

theorem errorHeading_mem : "## Inspection errors (".toList ++ Text.ofNat s.errors.length ++ [')']
    ∈ reportLines configPath base artifacts modes s := by
  have hsection : [[], "## Inspection errors (".toList ++ Text.ofNat s.errors.length ++ [')'], []]
      <:+: reportLines configPath base artifacts modes s :=
    List.infix_of_mem_flatten (by simp only [List.mem_cons, true_or, or_true])
  exact hsection.subset (List.mem_cons_of_mem _ List.mem_cons_self)

end Sections

theorem expectedText_congr {modes modes' : List PolicyMode}
    (h : ∀ mode, mode ∈ modes ↔ mode ∈ modes') :
    expectedText modes = expectedText modes' := by
  have hperm : modes.dedup.Perm modes'.dedup := by
    rw [List.perm_ext_iff_of_nodup modes.nodup_dedup modes'.nodup_dedup]
    simpa only [List.mem_dedup] using h
  unfold expectedText
  rcases hmodes : modes.dedup with _ | ⟨mode, _ | ⟨mode', more⟩⟩
  · rw [hmodes] at hperm
    rw [hperm.nil_eq.symm]
  · rw [hmodes] at hperm
    rw [List.singleton_perm.mp hperm]
  · rw [hmodes] at hperm
    have hlength := hperm.length_eq
    rcases hmodes' : modes'.dedup with _ | ⟨_, _ | ⟨_, _⟩⟩
    · rfl
    · rw [hmodes'] at hlength
      cases hlength
    · rfl

theorem expectation_eq (hload : loadConfig printable config = .ok cfg) (check : Check) :
    expectation cfg.modes (world.finalState fnmatchcase cfg) check
      = world.expected fnmatchcase config cfg check := by
  let shown := [PolicyMode.present, .absent, .ignore].filter
    (· ∈ seenModes cfg.modes (world.finalState fnmatchcase cfg) check)
  have hdedup : shown.dedup = shown :=
    List.Nodup.dedup (List.Nodup.sublist List.filter_sublist (by decide))
  have hshown : expectation cfg.modes (world.finalState fnmatchcase cfg) check
      = expectedText shown := by
    rw [expectedText, hdedup]
    rfl
  rw [hshown]
  refine expectedText_congr fun mode => ?_
  rw [← mem_seenModes hload check mode, List.mem_filter, decide_eq_true_iff, and_iff_right]
  cases mode <;> decide

/-- What is not in error has been inspected. -/
theorem kind_counts (cfg : BuildConfig) (kind : ArtifactKind) :
    (world.ofKind cfg kind).length
      - (world.ofKind cfg kind).countP (fun a => !a.units.any BuildUnit.isError)
    = (world.ofKind cfg kind).countP fun a => a.units.any BuildUnit.isError := by
  have hsum := List.length_eq_countP_add_countP (fun a : Inspected =>
    a.units.any BuildUnit.isError) (l := world.ofKind cfg kind)
  simp only [Bool.not_eq_true, Bool.decide_eq_false] at hsum
  rw [hsum, Nat.add_sub_cancel]

/-- The rows of the report are those that show the figures. -/
theorem failureRow_eq (hload : loadConfig printable config = .ok cfg) :
    failureRow cfg.modes (world.finalState fnmatchcase cfg)
      = world.shownFailures fnmatchcase config cfg := by
  funext check
  have hfigures := @accounting fnmatchcase printable config cfg world hload
  have henforced : (enforced cfg.modes (world.finalState fnmatchcase cfg)).contains check
      = world.enforces fnmatchcase config cfg check := by
    rw [Bool.eq_iff_iff, List.contains_iff_mem, mem_enforced hload]
  have hunits : failedItemsOf (world.finalState fnmatchcase cfg) check
      = world.failingUnits fnmatchcase config cfg check := hfigures.checkItems check
  have hfiles : failedFilesOf (world.finalState fnmatchcase cfg) check
      = world.failingFiles fnmatchcase config cfg check := hfigures.checkFiles check
  have hopening : "[".toList = ['['] := rfl
  have hclosing : ")".toList = [')'] := rfl
  have hnone : "-".toList = ['-'] := rfl
  unfold failureRow BuildWorld.shownFailures tableRow
  simp only [henforced, expectation_eq hload, hunits, hfiles, Text.join, List.append_assoc,
    hopening, hclosing, hnone]

theorem fileRow_eq (hload : loadConfig printable config = .ok cfg) :
    fileRow (world.finalState fnmatchcase cfg) = fun kind => shownCounts kind.name
      (world.ofKind cfg kind).length
      ((world.ofKind cfg kind).countP fun a => !a.units.any BuildUnit.isError)
      ((world.ofKind cfg kind).countP fun a => a.units.any BuildUnit.isError) := by
  funext kind
  have hfigures := (@accounting fnmatchcase printable config cfg world hload).kinds kind
  have hchecked : ((world.finalState fnmatchcase cfg).files kind).length
      = (world.ofKind cfg kind).length := by
    rw [hfigures.1, BuildWorld.ofKind, List.countP_eq_length_filter]
  have hinspected : (world.finalState fnmatchcase cfg).inspectedByKind kind
      = (world.ofKind cfg kind).countP fun a => !a.units.any BuildUnit.isError := by
    rw [hfigures.2, BuildWorld.ofKind, List.countP_filter]
    exact congrArg (List.countP · _) (funext fun a => Bool.and_comm _ _)
  unfold fileRow shownCounts tableRow
  rw [hchecked, hinspected]
  simp only [kind_counts, Text.join, List.append_assoc]

theorem memberRow_eq (hload : loadConfig printable config = .ok cfg) :
    memberRow (world.finalState fnmatchcase cfg) = shownCounts "archive member".toList
      ((world.units cfg).countP fun u => u.2.isMember)
      ((world.units cfg).countP fun u => u.2.isMember && !u.2.isError)
      ((world.units cfg).countP fun u => u.2.isMember && u.2.isError) := by
  have hfigures := (@accounting fnmatchcase printable config cfg world hload).members
  have hlabel : "| archive member | ".toList
      = "| ".toList ++ (Text.padRight 14 "archive member".toList ++ " | ".toList) := by decide
  unfold memberRow shownCounts tableRow
  rw [hfigures.1, hfigures.2.1, hfigures.2.2]
  simp only [Text.join, List.append_assoc]
  refine (congrArg (· ++ _) hlabel).trans ?_
  simp only [List.append_assoc]

theorem summaryLine_eq (hload : loadConfig printable config = .ok cfg) :
    summaryLine cfg.modes (world.finalState fnmatchcase cfg)
      = world.shownStates fnmatchcase config cfg := by
  funext check
  have hcounts := (@finalState_accounts fnmatchcase world cfg).1.counts check
  have hequals : "=".toList = ['='] := rfl
  unfold summaryLine BuildWorld.shownStates
  simp only [expectation_eq hload, hcounts, hequals]

/-- The report shows the figures. -/
theorem report_shows (hload : loadConfig printable config = .ok cfg) :
    ReportShows fnmatchcase world config cfg (world.report fnmatchcase cfg) := by
  have hfigures := @accounting fnmatchcase printable config cfg world hload
  have herrors : (world.finalState fnmatchcase cfg).errors.length = world.errorCount cfg :=
    hfigures.errors
  constructor
  · have hlines : overview (world.artifacts cfg).entries.length (world.finalState fnmatchcase cfg)
        <:+: world.report fnmatchcase cfg := overview_infix
    rw [overview, hfigures.checked, hfigures.failures, herrors, hfigures.codeItems,
      hfigures.failedItems, hfigures.skipped] at hlines
    exact hlines
  · have htable : failureTable cfg.modes (world.finalState fnmatchcase cfg)
        <:+: world.report fnmatchcase cfg := failureTable_infix
    rw [failureTable, failureRow_eq hload] at htable
    exact htable
  · have htable : fileTable (world.finalState fnmatchcase cfg)
        <:+: world.report fnmatchcase cfg := fileTable_infix
    rw [fileTable, fileRow_eq hload, memberRow_eq hload] at htable
    exact htable
  · intro check hcheck
    have hsection : failureSection cfg.modes (world.finalState fnmatchcase cfg) check
        <:+: world.report fnmatchcase cfg :=
      failureSection_infix ((mem_enforced hload check).mpr hcheck)
    rw [failureSection, hfigures.checkItems, expectation_eq hload] at hsection
    exact (List.prefix_append _ _).isInfix.trans hsection
  · have hheading : _ ∈ world.report fnmatchcase cfg :=
      @errorHeading_mem _ _ _ cfg.modes (world.finalState fnmatchcase cfg)
    rw [herrors] at hheading
    exact hheading
  · intro kind title htitle
    have hinventory : inventory (world.finalState fnmatchcase cfg) kind title
        <:+: world.report fnmatchcase cfg := inventory_infix htitle
    have hpaths : (world.finalState fnmatchcase cfg).files kind
        = (world.ofKind cfg kind).map (·.path.text) :=
      (@finalState_accounts fnmatchcase world cfg).2.files kind
    rw [inventory, hpaths, List.length_map] at hinventory
    exact hinventory
  · have hsummary : checkSummary cfg.modes (world.finalState fnmatchcase cfg)
        <:+: world.report fnmatchcase cfg := checkSummary_infix
    rw [checkSummary, summaryLine_eq hload] at hsummary
    exact hsummary

end LighttpdFuzz

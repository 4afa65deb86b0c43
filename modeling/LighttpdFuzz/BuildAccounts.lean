import LighttpdFuzz.BuildReport
import Mathlib.Algebra.BigOperators.Group.List.Basic

/-!
# The accounts of the build report

Each loop of `make_report` is settled by what one turn adds to the
accounts. `checkLoop_eq` closes the innermost loop; `UnitAccounts` is
the invariant of the loop over units, stated over the list of units
done, each with the name of its file, so that it runs through the loop
over artifacts unchanged; `FileAccounts` adds what the outer loop counts
itself.
-/

namespace LighttpdFuzz

open PosixPath

/-! ## The loop over the checks -/

theorem ite_update_apply {κ ν : Type*} [DecidableEq κ] (b : Bool) (f : κ → ν) (k : κ) (v : ν)
    (k' : κ) :
    (if b = true then Function.update f k v else f) k' = if k' = k ∧ b = true then v else f k' := by
  rcases eq_or_ne k' k with rfl | h
  · cases b <;> simp
  · cases b <;> simp [h]

section Checks

variable (name item : Text) (itemModes : AssocMap Text PolicyMode) (evidence : Evidence)

/-- The mode the item's modes give a check is broken by its evidence. -/
def mismatches (itemModes : AssocMap Text PolicyMode) (evidence : Evidence) (check : Check) :
    Bool :=
  policyFailed (modeFor itemModes check) (detect check evidence).1

theorem checkLoop_eq : ∀ {l : List Check}, l.Nodup → ∀ (s : ReportState) (failed : Bool),
    l.foldl (checkStep name item itemModes evidence) (s, failed) =
      ({ s with
          usedModes := fun check =>
            if check ∈ l then insert (modeFor itemModes check) (s.usedModes check)
            else s.usedModes check
          counts := fun check state =>
            s.counts check state
              + if check ∈ l ∧ (detect check evidence).1 = state then 1 else 0
          details := s.details ++ l.map fun check =>
            checkLine check (detect check evidence) (modeFor itemModes check)
              (mismatches itemModes evidence check)
          failuresByCheck := fun check =>
            if check ∈ l ∧ mismatches itemModes evidence check = true then
              (s.failuresByCheck check).bump name
                (failureText item (detect check evidence) (modeFor itemModes check))
            else s.failuresByCheck check },
        failed || l.any (mismatches itemModes evidence))
  | [], _, s, failed => by simp
  | check :: l, hnodup, s, failed => by
      rw [List.nodup_cons] at hnodup
      have hne : ∀ c ∈ l, c ≠ check := fun c hc h => hnodup.1 (h ▸ hc)
      rw [List.foldl_cons, checkStep, checkLoop_eq hnodup.2]
      refine Prod.ext ?_ (by rw [List.any_cons, Bool.or_assoc]; rfl)
      simp only [ReportState.mk.injEq, true_and, and_true]
      refine ⟨?_, ?_, ?_, ?_⟩
      · rw [List.map_cons, List.append_assoc, List.singleton_append]
        rfl
      · funext c state
        rcases eq_or_ne c check with rfl | hc
        · simp only [hnodup.1, false_and, if_false, List.mem_cons_self, true_and,
            Function.update_self, Nat.add_zero]
          rcases eq_or_ne (detect c evidence).1 state with rfl | hstate
          · rw [Function.update_self, if_pos rfl]
          · rw [Function.update_of_ne (Ne.symm hstate), if_neg hstate, Nat.add_zero]
        · rw [Function.update_of_ne hc]
          simp [hc]
      · funext c
        simp only [ite_update_apply, mismatches, List.mem_cons]
        rcases eq_or_ne c check with rfl | hc
        · simp [hnodup.1]
        · simp [hc]
      · funext c
        rcases eq_or_ne c check with rfl | hc
        · simp [hnodup.1]
        · simp [hc]

end Checks

/-! ## The loop over the units -/

section Units

variable (fnmatchcase : Text → Text → Bool)
variable (modes : AssocMap Text PolicyMode) (overrides : List (Text × AssocMap Text PolicyMode))

def BuildUnit.isItem (unit : BuildUnit) : Bool :=
  match unit.outcome with
  | .evidence _ => true
  | _ => false

def BuildUnit.isSkipped (unit : BuildUnit) : Bool :=
  match unit.outcome with
  | .skipped _ => true
  | _ => false

def BuildUnit.isMember (unit : BuildUnit) : Bool := decide (unit.member ≠ [])

/-- The unit's evidence puts the check in the state. -/
def BuildUnit.inState (unit : BuildUnit) (check : Check) (state : CheckState) : Bool :=
  match unit.outcome with
  | .evidence evidence => decide ((detect check evidence).1 = state)
  | _ => false

/-- The mode of a check for a unit of the file `name`. -/
def unitMode (name : Text) (unit : BuildUnit) (check : Check) : PolicyMode :=
  modeFor (effectiveModes fnmatchcase name unit.member modes overrides) check

/-- A unit of the file `name` does not meet what is expected of a check. -/
def failsCheck (name : Text) (unit : BuildUnit) (check : Check) : Bool :=
  match unit.outcome with
  | .evidence evidence =>
      policyFailed (unitMode fnmatchcase modes overrides name unit check) (detect check evidence).1
  | _ => false

def failsItem (name : Text) (unit : BuildUnit) : Bool :=
  Check.all.any (failsCheck fnmatchcase modes overrides name unit)

theorem nameUnit_spec (name : Text) (s : FileState) (unit : BuildUnit) :
    (nameUnit name s unit).1.fileFailed = s.fileFailed ∧ ∃ details : List Text,
      (nameUnit name s unit).1.report =
        { s.report with
          membersChecked := s.report.membersChecked + if unit.isMember then 1 else 0
          memberErrors :=
            s.report.memberErrors + if unit.isMember && unit.isError then 1 else 0
          membersInspected :=
            s.report.membersInspected + if unit.isMember && !unit.isError then 1 else 0
          details := details } := by
  unfold nameUnit
  by_cases hmember : unit.member = []
  · have hisMember : unit.isMember = false := decide_eq_false (not_not_intro hmember)
    rw [if_pos hmember]
    refine ⟨rfl, s.report.details, ?_⟩
    rw [hisMember]
    rfl
  · have hisMember : unit.isMember = true := decide_eq_true hmember
    rw [if_neg hmember]
    refine ⟨rfl, s.report.details ++ [[], "#### `".toList ++ unit.member ++ ['`']
      ++ occurrenceSuffix ((s.occurrences.get unit.member).getD 0 + 1)], ?_⟩
    rw [hisMember]
    cases unit.isError <;> rfl

/-- What one unit adds to the accounts. -/
theorem unitStep_spec (name : Text) (s : FileState) (unit : BuildUnit) :
    (unitStep fnmatchcase modes overrides name s unit).fileFailed
        = (s.fileFailed || failsItem fnmatchcase modes overrides name unit)
      ∧ ∃ (details : List Text) (message : Text) (text : Check → Text),
        (unitStep fnmatchcase modes overrides name s unit).report =
          { s.report with
            membersChecked := s.report.membersChecked + if unit.isMember then 1 else 0
            memberErrors :=
              s.report.memberErrors + if unit.isMember && unit.isError then 1 else 0
            membersInspected :=
              s.report.membersInspected + if unit.isMember && !unit.isError then 1 else 0
            details := details
            counts := fun check state =>
              s.report.counts check state + if unit.inState check state then 1 else 0
            failuresByCheck := fun check =>
              if failsCheck fnmatchcase modes overrides name unit check then
                (s.report.failuresByCheck check).bump name (text check)
              else s.report.failuresByCheck check
            usedModes := fun check =>
              if unit.isItem then
                insert (unitMode fnmatchcase modes overrides name unit check)
                  (s.report.usedModes check)
              else s.report.usedModes check
            codeItems := s.report.codeItems + if unit.isItem then 1 else 0
            failedItems := s.report.failedItems
              + if failsItem fnmatchcase modes overrides name unit then 1 else 0
            skipped := s.report.skipped + if unit.isSkipped then 1 else 0
            errors := s.report.errors ++ if unit.isError then [message] else [] } := by
  obtain ⟨hfailed, details, hreport⟩ := nameUnit_spec name s unit
  obtain ⟨member, outcome⟩ := unit
  cases outcome with
  | error message =>
      have hitem : failsItem fnmatchcase modes overrides name ⟨member, .error message⟩ = false :=
        rfl
      have hcheck : ∀ check,
          failsCheck fnmatchcase modes overrides name ⟨member, .error message⟩ check = false :=
        fun _ => rfl
      refine ⟨?_, details ++ [[], "```text".toList] ++ ["  ERROR: ".toList ++ message,
        "```".toList], (nameUnit name s ⟨member, .error message⟩).2 ++ ": ".toList ++ message,
        fun _ => [], ?_⟩
      · simp only [unitStep, hfailed, hitem, Bool.or_false]
      · simp only [unitStep, hreport, hitem, hcheck]
        simp [BuildUnit.inState, BuildUnit.isItem, BuildUnit.isSkipped, BuildUnit.isError]
  | skipped reason =>
      have hitem : failsItem fnmatchcase modes overrides name ⟨member, .skipped reason⟩ = false :=
        rfl
      have hcheck : ∀ check,
          failsCheck fnmatchcase modes overrides name ⟨member, .skipped reason⟩ check = false :=
        fun _ => rfl
      refine ⟨?_, details ++ [[], "```text".toList] ++ ["  SKIPPED: ".toList ++ reason,
        "```".toList], [], fun _ => [], ?_⟩
      · simp only [unitStep, hfailed, hitem, Bool.or_false]
      · simp only [unitStep, hreport, hitem, hcheck]
        simp [BuildUnit.inState, BuildUnit.isItem, BuildUnit.isSkipped, BuildUnit.isError]
  | evidence evidence =>
      let itemModes := effectiveModes fnmatchcase name member modes overrides
      let item := (nameUnit name s ⟨member, .evidence evidence⟩).2
      refine ⟨?_, details ++ [[], "```text".toList] ++ (Check.all.map fun check =>
          checkLine check (detect check evidence) (modeFor itemModes check)
            (mismatches itemModes evidence check)) ++ ["```".toList], [],
        fun check => failureText item (detect check evidence) (modeFor itemModes check), ?_⟩
      · simp only [unitStep, checkLoop_eq _ _ _ _ Check.nodup_all, hfailed, Bool.false_or]
        rfl
      · simp only [unitStep, checkLoop_eq _ _ _ _ Check.nodup_all, hreport, Check.mem_all,
          true_and, if_true, Bool.false_or]
        simp only [BuildUnit.inState, BuildUnit.isItem, BuildUnit.isSkipped, BuildUnit.isError,
          decide_eq_true_eq, if_true, Bool.false_eq_true, if_false, Nat.add_zero,
          List.append_nil]
        rfl

/-- The accounts after the units `done`, each with the name of its file. -/
structure UnitAccounts (errors : List Text) (done : List (Text × BuildUnit))
    (s : ReportState) : Prop where
  membersChecked : s.membersChecked = done.countP fun u => u.2.isMember
  memberErrors : s.memberErrors = done.countP fun u => u.2.isMember && u.2.isError
  membersInspected : s.membersInspected = done.countP fun u => u.2.isMember && !u.2.isError
  counts : ∀ check state, s.counts check state = done.countP fun u => u.2.inState check state
  failuresByCheck : ∀ check, ∃ texts : List (Text × Text),
    s.failuresByCheck check = AssocMap.countAll texts
      ∧ texts.map Prod.fst
        = (done.filter fun u => failsCheck fnmatchcase modes overrides u.1 u.2 check).map Prod.fst
  usedModes : ∀ check mode, mode ∈ s.usedModes check ↔ ∃ u ∈ done, u.2.isItem = true
    ∧ unitMode fnmatchcase modes overrides u.1 u.2 check = mode
  codeItems : s.codeItems = done.countP fun u => u.2.isItem
  failedItems : s.failedItems
    = done.countP fun u => failsItem fnmatchcase modes overrides u.1 u.2
  skipped : s.skipped = done.countP fun u => u.2.isSkipped
  errors : ∃ added, s.errors = errors ++ added
    ∧ added.length = done.countP fun u => u.2.isError

variable {fnmatchcase modes overrides}

theorem UnitAccounts.start (errors : List Text) :
    UnitAccounts fnmatchcase modes overrides errors [] (ReportState.start errors) where
  membersChecked := rfl
  memberErrors := rfl
  membersInspected := rfl
  counts _ _ := rfl
  failuresByCheck _ := ⟨[], rfl, rfl⟩
  usedModes _ _ := by simp [ReportState.start]
  codeItems := rfl
  failedItems := rfl
  skipped := rfl
  errors := ⟨[], (List.append_nil errors).symm, rfl⟩

theorem UnitAccounts.step {errors : List Text} {done : List (Text × BuildUnit)}
    {s : FileState} (h : UnitAccounts fnmatchcase modes overrides errors done s.report)
    (name : Text) (unit : BuildUnit) :
    UnitAccounts fnmatchcase modes overrides errors (done ++ [(name, unit)])
      (unitStep fnmatchcase modes overrides name s unit).report := by
  obtain ⟨-, details, message, text, hstep⟩ :=
    unitStep_spec fnmatchcase modes overrides name s unit
  rw [hstep]
  refine
    { membersChecked := by simp [h.membersChecked, List.countP_append]
      memberErrors := by simp [h.memberErrors, List.countP_append]
      membersInspected := by simp [h.membersInspected, List.countP_append]
      counts := fun check state => by simp [h.counts, List.countP_append]
      codeItems := by simp [h.codeItems, List.countP_append]
      failedItems := by simp [h.failedItems, List.countP_append]
      skipped := by simp [h.skipped, List.countP_append]
      failuresByCheck := fun check => ?_
      usedModes := fun check mode => ?_
      errors := ?_ }
  · obtain ⟨texts, htexts, hnames⟩ := h.failuresByCheck check
    cases hfails : failsCheck fnmatchcase modes overrides name unit check with
    | false => exact ⟨texts, by simp [htexts, hfails], by simp [hnames, hfails]⟩
    | true =>
        refine ⟨texts ++ [(name, text check)], ?_, by simp [hnames, hfails]⟩
        simp [htexts, hfails, AssocMap.countAll, AssocMap.bumpAll]
  · cases hitem : unit.isItem with
    | false => simp [h.usedModes, hitem]
    | true =>
        simp only [if_true, Finset.mem_insert, h.usedModes, List.mem_append, List.mem_singleton,
          or_and_right, exists_or, exists_eq_left, hitem, true_and]
        rw [or_comm, eq_comm (a := mode)]
  · obtain ⟨added, hadded, hlength⟩ := h.errors
    cases herror : unit.isError with
    | false => exact ⟨added, by simp [hadded], by simp [hlength, herror]⟩
    | true => exact ⟨added ++ [message], by simp [hadded], by simp [hlength, herror]⟩

/-- The loop over the units of one file. -/
theorem UnitAccounts.run {errors : List Text} (name : Text) :
    ∀ (units : List BuildUnit) {done : List (Text × BuildUnit)} {s : FileState},
      UnitAccounts fnmatchcase modes overrides errors done s.report →
        UnitAccounts fnmatchcase modes overrides errors (done ++ units.map (name, ·))
          (units.foldl (unitStep fnmatchcase modes overrides name) s).report
        ∧ (units.foldl (unitStep fnmatchcase modes overrides name) s).fileFailed
          = (s.fileFailed || units.any (failsItem fnmatchcase modes overrides name))
  | [], done, s, h => ⟨by simpa using h, by simp⟩
  | unit :: units, done, s, h => by
      obtain ⟨haccounts, hfailed⟩ := UnitAccounts.run name units (h.step name unit)
      rw [List.foldl_cons, List.map_cons, List.any_cons]
      refine ⟨by simpa using haccounts, ?_⟩
      rw [hfailed, (unitStep_spec fnmatchcase modes overrides name s unit).1, Bool.or_assoc]

/-! ## The loop over the artifacts -/

/-- The outer loop's own variables, which the inner loops leave alone. -/
def SameFiles (s s' : ReportState) : Prop :=
  s'.failures = s.failures ∧ s'.checked = s.checked ∧ s'.files = s.files
    ∧ s'.inspectedByKind = s.inspectedByKind

theorem unitLoop_sameFiles (name : Text) : ∀ (units : List BuildUnit) (s : FileState),
    SameFiles s.report (units.foldl (unitStep fnmatchcase modes overrides name) s).report
  | [], s => ⟨rfl, rfl, rfl, rfl⟩
  | unit :: units, s => by
      obtain ⟨-, details, message, text, hstep⟩ :=
        unitStep_spec fnmatchcase modes overrides name s unit
      have hrest : SameFiles (unitStep fnmatchcase modes overrides name s unit).report _ :=
        unitLoop_sameFiles name units _
      rw [SameFiles, hstep] at hrest
      exact hrest

variable (fnmatchcase modes overrides) in
/-- The accounts of the outer loop after the artifacts `done`. -/
structure FileAccounts (base : Resolved) (done : List Inspected) (s : ReportState) : Prop where
  failures : s.failures = done.countP fun a =>
    a.units.any (failsItem fnmatchcase modes overrides (relative base a.path))
  checked : s.checked = done.countP fun a => !a.units.any BuildUnit.isError
  files : ∀ kind, s.files kind = (done.filter fun a => decide (a.kind = kind)).map (·.path.text)
  inspectedByKind : ∀ kind, s.inspectedByKind kind
    = done.countP fun a => decide (a.kind = kind) && !a.units.any BuildUnit.isError

theorem UnitAccounts.frame {errors : List Text} {done : List (Text × BuildUnit)}
    {s : ReportState} (h : UnitAccounts fnmatchcase modes overrides errors done s)
    {files : ArtifactKind → List Text} {inspectedByKind : ArtifactKind → Nat}
    {details : List Text} {failures checked : Nat} :
    UnitAccounts fnmatchcase modes overrides errors done
      { s with files, inspectedByKind, details, failures, checked } :=
  ⟨h.membersChecked, h.memberErrors, h.membersInspected, h.counts, h.failuresByCheck,
    h.usedModes, h.codeItems, h.failedItems, h.skipped, h.errors⟩

/-- The units of some artifacts, each with the name of its file. -/
def namedUnits (base : Resolved) (artifacts : List Inspected) : List (Text × BuildUnit) :=
  artifacts.flatMap fun a => a.units.map (relative base a.path, ·)

theorem accounts_step {base : Resolved} {errors : List Text} {done : List Inspected}
    {s : ReportState}
    (hunits : UnitAccounts fnmatchcase modes overrides errors (namedUnits base done) s)
    (hfiles : FileAccounts fnmatchcase modes overrides base done s) (a : Inspected) :
    UnitAccounts fnmatchcase modes overrides errors (namedUnits base (done ++ [a]))
        (artifactStep fnmatchcase modes overrides (relative base a.path) a.path.text a.kind
          a.units s)
      ∧ FileAccounts fnmatchcase modes overrides base (done ++ [a])
        (artifactStep fnmatchcase modes overrides (relative base a.path) a.path.text a.kind
          a.units s) := by
  let name := relative base a.path
  let opened : FileState := ⟨openFile name a.path.text a.kind a.units s, false, .empty⟩
  have hopened : UnitAccounts fnmatchcase modes overrides errors (namedUnits base done)
      opened.report := hunits.frame
  obtain ⟨haccounts, hfailed⟩ := hopened.run name a.units
  have hsame : SameFiles opened.report
      (a.units.foldl (unitStep fnmatchcase modes overrides name) opened).report :=
    unitLoop_sameFiles name a.units opened
  obtain ⟨hfailures, hchecked, hpaths, hinspected⟩ := hsame
  have hnamed : namedUnits base (done ++ [a])
      = namedUnits base done ++ a.units.map (name, ·) := by
    simp [namedUnits, name]
  refine ⟨hnamed ▸ haccounts.frame, ?_⟩
  refine
    { failures := ?_
      checked := ?_
      files := fun kind => ?_
      inspectedByKind := fun kind => ?_ }
  · rw [List.countP_append, List.countP_singleton, ← hfiles.failures]
    change _ + _ = _
    rw [hfailures, hfailed]
    rfl
  · rw [List.countP_append, List.countP_singleton, ← hfiles.checked]
    exact hchecked
  · rw [List.filter_append, List.map_append, ← hfiles.files kind]
    refine (congrFun hpaths kind).trans ?_
    rcases eq_or_ne kind a.kind with rfl | hkind
    · simp [opened, openFile]
    · simp [opened, openFile, hkind, Ne.symm hkind]
  · rw [List.countP_append, List.countP_singleton, ← hfiles.inspectedByKind kind]
    refine (congrFun hinspected kind).trans ?_
    rcases eq_or_ne kind a.kind with rfl | hkind
    · simp [opened, openFile]
    · simp [opened, openFile, hkind, Ne.symm hkind]

/-- The accounts when the loops are done. -/
theorem accounts_run (base : Resolved) (errors : List Text) (artifacts : List Inspected) :
    UnitAccounts fnmatchcase modes overrides errors (namedUnits base artifacts)
        (reportState fnmatchcase modes overrides base artifacts errors)
      ∧ FileAccounts fnmatchcase modes overrides base artifacts
        (reportState fnmatchcase modes overrides base artifacts errors) := by
  induction artifacts using List.reverseRecOn with
  | nil => exact ⟨.start errors, ⟨rfl, rfl, fun _ => rfl, fun _ => rfl⟩⟩
  | append_singleton artifacts a ih =>
      have hstep : reportState fnmatchcase modes overrides base (artifacts ++ [a]) errors
          = artifactStep fnmatchcase modes overrides (relative base a.path) a.path.text a.kind
            a.units (reportState fnmatchcase modes overrides base artifacts errors) := by
        rw [reportState, List.foldl_append]
        rfl
      rw [hstep]
      exact accounts_step ih.1 ih.2 a

end Units

end LighttpdFuzz

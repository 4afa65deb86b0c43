import LighttpdFuzz.BuildConfig
import LighttpdFuzz.PosixPath
import LighttpdFuzz.PyBytes
import Mathlib.Data.Finset.Insert

/-!
# The build report

`make_report` inspects every artifact once and keeps its accounts in a
dozen counters and maps, updated in three nested loops: over artifacts,
over the units of an artifact (the members of an archive), over the
checks of a unit. `main` turns the outcome into an exit status.

Inspecting a file (`inspect`) and finding the artifacts (`discover`) are
given by their results.
-/

namespace LighttpdFuzz

open PosixPath

inductive ArtifactKind where
  | object | binary | archive
  deriving DecidableEq, Repr

/-- The keys of `files`, in order. -/
def ArtifactKind.all : List ArtifactKind := [.object, .binary, .archive]

def ArtifactKind.name : ArtifactKind → Text
  | .object => "object".toList
  | .binary => "binary".toList
  | .archive => "archive".toList

/-- What inspecting one file or archive member gives. -/
inductive Outcome where
  | error (message : Text)
  | skipped (reason : Text)
  | evidence (evidence : Evidence)

/-- `Unit`; the member is empty for a file that is no archive. -/
structure BuildUnit where
  member : Text
  outcome : Outcome

def BuildUnit.isError (unit : BuildUnit) : Bool :=
  match unit.outcome with
  | .error _ => true
  | _ => false

/-- The variables of `make_report` that its loops update. -/
structure ReportState where
  files : ArtifactKind → List Text
  inspectedByKind : ArtifactKind → Nat
  membersChecked : Nat
  membersInspected : Nat
  memberErrors : Nat
  details : List Text
  counts : Check → CheckState → Nat
  failuresByCheck : Check → AssocMap Text (Nat × Text)
  usedModes : Check → Finset PolicyMode
  failures : Nat
  checked : Nat
  codeItems : Nat
  failedItems : Nat
  skipped : Nat
  errors : List Text

def ReportState.start (errors : List Text) : ReportState where
  files _ := []
  inspectedByKind _ := 0
  membersChecked := 0
  membersInspected := 0
  memberErrors := 0
  details := []
  counts _ _ := 0
  failuresByCheck _ := .empty
  usedModes _ := ∅
  failures := 0
  checked := 0
  codeItems := 0
  failedItems := 0
  skipped := 0
  errors := errors

/-! ## The loops -/

/-- One line of a unit's details. -/
def checkLine (check : Check) (found : CheckState × Text) (mode : PolicyMode)
    (mismatch : Bool) : Text :=
  let suffix := if mismatch then "; FAIL (expected ".toList ++ mode.name ++ [')'] else []
  "  ".toList ++ Text.padRight 18 check.name ++ [' '] ++ Text.padRight 11 found.1.name
    ++ [' '] ++ found.2 ++ suffix

/-- The text kept for the first failure of a check in a file. -/
def failureText (item : Text) (found : CheckState × Text) (mode : PolicyMode) : Text :=
  let detail := match found.1 with
    | .notSeen => "not seen".toList
    | .found => "found: ".toList ++ found.2
    | _ => "inconclusive: ".toList ++ found.2
  item ++ ": ".toList ++ detail ++ "; expected ".toList ++ mode.name

/-- The body of the loop over the checks; the flag is `item_failed`. -/
def checkStep (name item : Text) (itemModes : AssocMap Text PolicyMode) (evidence : Evidence)
    (acc : ReportState × Bool) (check : Check) : ReportState × Bool :=
  let s := acc.1
  let mode := modeFor itemModes check
  let found := detect check evidence
  let mismatch := policyFailed mode found.1
  ({ s with
      usedModes := Function.update s.usedModes check (insert mode (s.usedModes check))
      counts := Function.update s.counts check
        (Function.update (s.counts check) found.1 (s.counts check found.1 + 1))
      details := s.details ++ [checkLine check found mode mismatch]
      failuresByCheck :=
        if mismatch then
          Function.update s.failuresByCheck check
            ((s.failuresByCheck check).bump name (failureText item found mode))
        else s.failuresByCheck },
    acc.2 || mismatch)

/-- The variables of one file: the report's, `file_failed` and `occurrences`. -/
structure FileState where
  report : ReportState
  fileFailed : Bool
  occurrences : AssocMap Text Nat

/-- `f" [occurrence {occurrence}]"`, from the second one on. -/
def occurrenceSuffix (occurrence : Nat) : Text :=
  if occurrence > 1 then " [occurrence ".toList ++ Text.ofNat occurrence ++ [']'] else []

/-- The head of the loop over the units: number a member and name it. -/
def nameUnit (name : Text) (s : FileState) (unit : BuildUnit) : FileState × Text :=
  if unit.member = [] then (s, name)
  else
    let occurrence := (s.occurrences.get unit.member).getD 0 + 1
    let suffix := occurrenceSuffix occurrence
    ({ s with
        occurrences := s.occurrences.set unit.member occurrence
        report :=
          { s.report with
            membersChecked := s.report.membersChecked + 1
            memberErrors := s.report.memberErrors + if unit.isError then 1 else 0
            membersInspected := s.report.membersInspected + if unit.isError then 0 else 1
            details := s.report.details
              ++ [[], "#### `".toList ++ unit.member ++ ['`'] ++ suffix] } },
      memberName name unit.member ++ suffix)

section Report

variable (fnmatchcase : Text → Text → Bool)
variable (modes : AssocMap Text PolicyMode) (overrides : List (Text × AssocMap Text PolicyMode))

/-- The body of the loop over the units of the file `name`. -/
def unitStep (name : Text) (s : FileState) (unit : BuildUnit) : FileState :=
  let named := nameUnit name s unit
  let report := { named.1.report with
    details := named.1.report.details ++ [[], "```text".toList] }
  match unit.outcome with
  | .error message =>
      { named.1 with
        report :=
          { report with
            errors := report.errors ++ [named.2 ++ ": ".toList ++ message]
            details := report.details ++ ["  ERROR: ".toList ++ message, "```".toList] } }
  | .skipped reason =>
      { named.1 with
        report :=
          { report with
            skipped := report.skipped + 1
            details := report.details ++ ["  SKIPPED: ".toList ++ reason, "```".toList] } }
  | .evidence evidence =>
      let itemModes := effectiveModes fnmatchcase name unit.member modes overrides
      let checked := Check.all.foldl (checkStep name named.2 itemModes evidence)
        ({ report with codeItems := report.codeItems + 1 }, false)
      { named.1 with
        report :=
          { checked.1 with
            details := checked.1.details ++ ["```".toList]
            failedItems := checked.1.failedItems + if checked.2 then 1 else 0 }
        fileFailed := named.1.fileFailed || checked.2 }

/-- The units of a file. Inspection that raises leaves one error, with
the exception's text, which is not empty for those that are caught. -/
def unitsOf (inspected : Except Text (List BuildUnit)) : List BuildUnit :=
  match inspected with
  | .ok units => units
  | .error message => [⟨[], .error message⟩]

/-- The head of the loop over the artifacts. -/
def openFile (name path : Text) (kind : ArtifactKind) (units : List BuildUnit)
    (s : ReportState) : ReportState :=
  let inspected := !units.any BuildUnit.isError
  { s with
    files := Function.update s.files kind (s.files kind ++ [path])
    details := s.details
      ++ [[], "### `".toList ++ name ++ "` [".toList ++ kind.name ++ [']']]
    checked := s.checked + if inspected then 1 else 0
    inspectedByKind := Function.update s.inspectedByKind kind
      (s.inspectedByKind kind + if inspected then 1 else 0) }

/-- One artifact, with its units. -/
def artifactStep (name path : Text) (kind : ArtifactKind) (units : List BuildUnit)
    (s : ReportState) : ReportState :=
  let file := units.foldl (unitStep fnmatchcase modes overrides name)
    ⟨openFile name path kind units s, false, .empty⟩
  { file.report with
    failures := file.report.failures + if file.fileFailed then 1 else 0 }

/-- An artifact as the outer loop sees it: its path, kind and units. -/
structure Inspected where
  path : Resolved
  kind : ArtifactKind
  units : List BuildUnit

/-- The loops of `make_report`. -/
def reportState (base : Resolved) (artifacts : List Inspected) (errors : List Text) :
    ReportState :=
  artifacts.foldl
    (fun s a => artifactStep fnmatchcase modes overrides (relative base a.path) a.path.text
      a.kind a.units s)
    (ReportState.start errors)

end Report

/-! ## The text of the report -/

/-- `used_modes[check] or {modes.get(check, "ignore")}` -/
def seenModes (modes : AssocMap Text PolicyMode) (s : ReportState) (check : Check) :
    Finset PolicyMode :=
  if s.usedModes check = ∅ then {modeFor modes check} else s.usedModes check

/-- `expectations[check]` -/
def expectation (modes : AssocMap Text PolicyMode) (s : ReportState) (check : Check) : Text :=
  match [PolicyMode.present, .absent, .ignore].filter (· ∈ seenModes modes s check) with
  | [mode] => mode.name
  | _ => "varies".toList

/-- `enforced` -/
def enforced (modes : AssocMap Text PolicyMode) (s : ReportState) : List Check :=
  Check.all.filter fun check => decide (seenModes modes s check ≠ {PolicyMode.ignore})

/-- `sum(count for count, _ in failures_by_check[check].values())` -/
def failedItemsOf (s : ReportState) (check : Check) : Nat :=
  (s.failuresByCheck check).total

/-- `len(failures_by_check[check])` -/
def failedFilesOf (s : ReportState) (check : Check) : Nat :=
  (s.failuresByCheck check).entries.length

/-- A row of the failure counts. -/
def failureRow (modes : AssocMap Text PolicyMode) (s : ReportState) (check : Check) : Text :=
  let shown := (enforced modes s).contains check
  let total := if shown then ['['] ++ Text.ofNat (failedFilesOf s check) ++ "](#".toList
    ++ check.name ++ [')'] else ['-']
  let items := if shown then Text.ofNat (failedItemsOf s check) else ['-']
  "| ".toList ++ Text.padRight 18 check.name ++ " | ".toList
    ++ Text.padRight 8 (expectation modes s check) ++ " | ".toList ++ Text.padRight 32 total
    ++ " | ".toList ++ Text.padLeft 12 items ++ " |".toList

/-- A row of the file counts. -/
def fileRow (s : ReportState) (kind : ArtifactKind) : Text :=
  let checked := (s.files kind).length
  let inspected := s.inspectedByKind kind
  "| ".toList ++ Text.padRight 14 kind.name ++ " | ".toList
    ++ Text.padLeft 7 (Text.ofNat checked) ++ " | ".toList
    ++ Text.padLeft 9 (Text.ofNat inspected) ++ " | ".toList
    ++ Text.padLeft 6 (Text.ofNat (checked - inspected)) ++ " |".toList

def memberRow (s : ReportState) : Text :=
  "| archive member | ".toList ++ Text.padLeft 7 (Text.ofNat s.membersChecked)
    ++ " | ".toList ++ Text.padLeft 9 (Text.ofNat s.membersInspected) ++ " | ".toList
    ++ Text.padLeft 6 (Text.ofNat s.memberErrors) ++ " |".toList

/-- The failures of one check: its first text, or the number of its members. -/
def failureSection (modes : AssocMap Text PolicyMode) (s : ReportState) (check : Check) :
    List Text :=
  let groups := (s.failuresByCheck check).entries
  let total := failedItemsOf s check
  let entries := groups.map fun group =>
    if group.2.1 = 1 then group.2.2
    else group.1 ++ ": ".toList ++ Text.ofNat group.2.1
      ++ " member failures; see File details".toList
  let noun := if total = 1 then "failure".toList else "failures".toList
  [[], "### ".toList ++ check.name, [],
    "Expected ".toList ++ expectation modes s check ++ ": ".toList ++ Text.ofNat total ++ [' ']
      ++ noun, []]
    ++ (if entries = [] then ["None".toList]
        else ["```text".toList] ++ entries ++ ["```".toList])

/-- The state counts of a check. -/
def summaryLine (modes : AssocMap Text PolicyMode) (s : ReportState) (check : Check) : Text :=
  "  ".toList ++ check.name ++ " (expectation: ".toList ++ expectation modes s check
    ++ "): ".toList
    ++ Text.join ", ".toList (CheckState.all.map fun state =>
      state.name ++ ['='] ++ Text.ofNat (s.counts check state))

/-- The files of one kind, under their title. -/
def inventory (s : ReportState) (kind : ArtifactKind) (title : Text) : List Text :=
  [[], "## ".toList ++ title ++ " (".toList ++ Text.ofNat (s.files kind).length ++ [')'], [],
    "```text".toList] ++ s.files kind ++ ["```".toList]

/-- The lines that state the figures of the whole run. -/
def overview (artifacts : Nat) (s : ReportState) : List Text :=
  ["Files checked: ".toList ++ Text.ofNat artifacts ++ "; inspected: ".toList
      ++ Text.ofNat s.checked ++ "; files failing expectations: ".toList
      ++ Text.ofNat s.failures ++ "; errors: ".toList ++ Text.ofNat s.errors.length,
    "Check items: ".toList ++ Text.ofNat s.codeItems ++ "; failing expectations: ".toList
      ++ Text.ofNat s.failedItems ++ "; metadata items skipped: ".toList
      ++ Text.ofNat s.skipped]

def failureTable (modes : AssocMap Text PolicyMode) (s : ReportState) : List Text :=
  ["| Check              | Expected | Failed files                     | Failed items |".toList,
    "| ------------------ | -------- | -------------------------------- | ------------ |".toList]
    ++ Check.all.map (failureRow modes s)

def fileTable (s : ReportState) : List Text :=
  ["| Type           | Checked | Inspected | Errors |".toList,
    "| -------------- | ------- | --------- | ------ |".toList]
    ++ ArtifactKind.all.map (fileRow s) ++ [memberRow s]

def checkSummary (modes : AssocMap Text PolicyMode) (s : ReportState) : List Text :=
  ["## Check summary".toList, [], "```text".toList] ++ Check.all.map (summaryLine modes s)
    ++ ["```".toList]

/-- The lines of the report. -/
def reportLines (configPath base : Text) (artifacts : Nat) (modes : AssocMap Text PolicyMode)
    (s : ReportState) : List Text :=
  List.flatten
    [["# Build artifact report".toList, [], "Config: ".toList ++ configPath,
        "Paths relative to: ".toList ++ base],
      overview artifacts s,
      ["Evidence checks only; inconclusive results fail either expectation.".toList,
        "Archive members are checked separately; Rust metadata-only items are listed as skipped.".toList,
        "Inventory paths are absolute.".toList,
        [], "## Failure counts".toList, []],
      failureTable modes s,
      [[],
        "An item is an object, binary, or individual archive member, excluding Rust metadata-only items.".toList,
        "Archives with multiple failures have one summary line; every member result appears under File details.".toList,
        "Ignored checks have no failure count. 'varies' means path rules set different expectations.".toList,
        [], "## File counts".toList, []],
      fileTable s,
      [[],
        "The archive member row counts members read within archives; it is not an additional file total.".toList,
        [], "## Failures".toList, []],
      if enforced modes s = [] then ["No expectations configured for the checked items.".toList]
      else [],
      (enforced modes s).flatMap (failureSection modes s),
      [[], "## Inspection errors (".toList ++ Text.ofNat s.errors.length ++ [')'], []],
      if s.errors = [] then ["None".toList]
      else ["```text".toList] ++ s.errors ++ ["```".toList],
      inventory s .object "Objects".toList,
      inventory s .binary "Binaries".toList,
      inventory s .archive "Archives".toList,
      [[], "## Evidence key".toList, [], "```text".toList,
        "FOUND = strong reference or nonempty instrumentation section (libfuzzer: driver symbol).".toList,
        "SYMBOL-ONLY = definition or optional weak reference; instrumentation use is unproven.".toList,
        "NOT-SEEN = no evidence in available tables; compiler options and symbol completeness are unproven.".toList,
        "UNKNOWN = symbol table unavailable, usually due to stripping.".toList,
        "SKIPPED = identified Rust metadata with no runtime code or data.".toList,
        "```".toList, []],
      checkSummary modes s,
      [[], "## File details".toList],
      s.details]

/-! ## The program -/

/-- What `main` finds where the report is to be written. -/
structure OutputFile where
  configuredName : Text
  resolvedName : Text
  /-- The resolved path is, or is the same file as, an input. -/
  isInput : Bool
  /-- For a file that exists: is it regular, its links, its first bytes. -/
  existing : Option (Bool × Nat × Bytes)

/-- The end of a name from its last dot on, `Path.suffix`. -/
def suffixOf (name : Text) : Text :=
  let tail := name.reverse.takeWhile (· ≠ '.')
  if tail ≠ [] ∧ tail.length + 1 < name.length then '.' :: tail.reverse else []

def artifactSuffixes : List Text :=
  [".o".toList, ".obj".toList, ".lo".toList, ".ko".toList, ".a".toList, ".rlib".toList,
    ".bc".toList]

/-- `re.search(r"\.so(?:\..*)?$", name)`; the end is also found before a
final newline. -/
def isSharedLibraryName (name : Text) : Bool :=
  let name := if name.getLast? = some '\n' then name.dropLast else name
  name.tails.any fun t =>
    decide (t = ".so".toList) || (decide (".so.".toList <+: t) && !(t.drop 4).contains '\n')

def artifactMagic : List Bytes :=
  [0x7f :: Bytes.ascii "ELF", Bytes.ascii "!<arch>\n", Bytes.ascii "!<thin>\n",
    [0x42, 0x43, 0xc0, 0xde], [0xde, 0xc0, 0x17, 0x0b]]

/-- Why the report may not be written there, if so. -/
def checkOutput (output : OutputFile) : Except Text Unit :=
  if [output.configuredName, output.resolvedName].any fun name =>
      artifactSuffixes.contains (suffixOf name) || isSharedLibraryName name then
    .error "output paths must not use object, archive, or shared-library filenames".toList
  else if output.isInput then
    .error "output path must not overwrite an input artifact, config, or checker".toList
  else
    match output.existing with
    | none => .ok ()
    | some (regular, links, magic) =>
        if !regular then .error "output path must be a regular file".toList
        else if links > 1 then
          .error "output path must not be hardlinked to another file".toList
        else if artifactMagic.any fun m => decide (m <+: magic) then
          .error "output path must not overwrite an artifact, even if excluded".toList
        else .ok ()

/-- What one run of the checker meets. -/
structure BuildWorld where
  /-- `str.isprintable` on one character. -/
  printable : Char → Bool
  /-- Reading and parsing the config file. -/
  config : Except Text IniFile
  configPath : Text
  /-- The directory of the config file. -/
  base : Resolved
  hasReadelf : Bool
  /-- The result of `discover` for a config: no path twice. -/
  artifacts : BuildConfig → AssocMap Resolved ArtifactKind
  discoveryErrors : BuildConfig → List Text
  inspect : Resolved → ArtifactKind → Except Text (List BuildUnit)
  output : BuildConfig → OutputFile
  /-- Writing the report. -/
  write : List Text → Except Text Unit

def BuildWorld.inspected (world : BuildWorld) (cfg : BuildConfig) : List Inspected :=
  (world.artifacts cfg).entries.map fun e =>
    ⟨e.1, e.2, unitsOf (world.inspect e.1 e.2)⟩

/-- The accounts `make_report` ends with. -/
def BuildWorld.finalState (world : BuildWorld) (fnmatchcase : Text → Text → Bool)
    (cfg : BuildConfig) : ReportState :=
  reportState fnmatchcase cfg.modes cfg.overrides world.base (world.inspected cfg)
    (world.discoveryErrors cfg)

def BuildWorld.report (world : BuildWorld) (fnmatchcase : Text → Text → Bool)
    (cfg : BuildConfig) : List Text :=
  reportLines world.configPath world.base.text (world.artifacts cfg).entries.length cfg.modes
    (world.finalState fnmatchcase cfg)

/-- `2 if errors else 1 if failures else 0` -/
def exitStatus (s : ReportState) : Nat :=
  if s.errors ≠ [] then 2 else if s.failures ≠ 0 then 1 else 0

/-- `main()`: the exit status of a run. -/
def BuildWorld.main (world : BuildWorld) (fnmatchcase : Text → Text → Bool) : Nat :=
  match world.config with
  | .error _ => 2
  | .ok config =>
      match loadConfig world.printable config with
      | .error _ => 2
      | .ok cfg =>
          if !world.hasReadelf then 2
          else
            match checkOutput (world.output cfg) with
            | .error _ => 2
            | .ok () =>
                match world.write (world.report fnmatchcase cfg) with
                | .error _ => 2
                | .ok () => exitStatus (world.finalState fnmatchcase cfg)

end LighttpdFuzz

import Mathlib.Data.List.DropRight
import LighttpdFuzz.AssocMap
import LighttpdFuzz.LineTools

/-!
# Sorting the sanitizer logs

`asanProcess.sh` reads the files of `logs/` and decides which sanitizer
reports are real. A report that libFuzzer's exit hook provokes while the
supervisor stops a child is a *harness shutdown*: it is recognised by
joining the report's name (config, launch id, PID), its supervisor
sidecar, its text and the error log of the same config, which is read by
a small state machine.

The clean-up of the remaining report text (one `sed` chain over the
joined reports) is a parameter, `aggregate`: what matters here is which
logs it gets to see. What `grep` prints of the lines it selects depends on
the locale, which is a parameter too (`Grep`).
-/

namespace LighttpdFuzz

open LineTools

/-- The regular files under `logs/`, each with its lines. -/
abbrev LogDirectory := AssocMap Line (List Line)

/-! ## What `grep` prints -/

/-- `grep` prints text: of the lines that it selects it leaves out those
that are improperly encoded in the locale, and once it has found a NUL in
a file it prints nothing more. -/
structure Grep where
  encoded : Line → Bool
  /-- The lines of a file that come before a NUL is found. -/
  text : List Line → List Line
  encoded_ascii : ∀ line, (∀ c ∈ line, c.toNat < 0x80) → encoded line = true
  text_prefix : ∀ lines, text lines <+: lines
  text_eq : ∀ lines, (∀ line ∈ lines, '\x00' ∉ line) → text lines = lines

/-- The lines that are selected and printed. -/
def Grep.printed (grep : Grep) (selects : Line → Bool) (lines : List Line) : List Line :=
  (lines.filter selects).filter grep.encoded

/-- A locale without any other character than those of ASCII. -/
def asciiGrep : Grep where
  encoded line := line.all fun c => decide (c.toNat < 0x80)
  text lines := if lines.all fun line => !line.contains '\x00' then lines else []
  encoded_ascii line h := List.all_eq_true.mpr fun c hc => decide_eq_true (h c hc)
  text_prefix lines := by
    split
    · exact List.prefix_refl lines
    · exact List.nil_prefix
  text_eq lines h := by
    refine if_pos (List.all_eq_true.mpr fun line hline => ?_)
    simpa using h line hline

/-! ## Which logs are candidates -/

def isLaunchIdChar (c : Char) : Bool :=
  c.isAlphanum || c == '_' || c == '-'

def asanPrefix : Line := "asan".toList
def logInfix : Line := ".log.".toList
def dot : Line := ".".toList

/-- `^asan([0-9]+)\.log\.([0-9]+)$` -/
def asanLogPattern : List Piece :=
  [.text asanPrefix, .field Char.isDigit, .text logInfix, .field Char.isDigit]

/-- `^asan([0-9]+)\.log\.([A-Za-z0-9_-]+)\.([0-9]+)$` -/
def asanLaunchLogPattern : List Piece :=
  [.text asanPrefix, .field Char.isDigit, .text logInfix, .field isLaunchIdChar,
    .text dot, .field Char.isDigit]

/-- What a recognised name carries: config, launch id (if any) and PID. -/
structure AsanName where
  configId : Line
  launchId : Option Line
  reportPid : Line
  deriving DecidableEq, Repr

def readAsanName (filename : Line) : Option AsanName :=
  match capture asanLogPattern filename with
  | some [configId, reportPid] => some ⟨configId, none, reportPid⟩
  | _ =>
      match capture asanLaunchLogPattern filename with
      | some [configId, launchId, reportPid] => some ⟨configId, some launchId, reportPid⟩
      | _ => none

/-- `asan_logs`: the recognised files among `logs/asan*`. -/
def asanLogs (dir : LogDirectory) : List (Line × List Line) :=
  dir.entries.filter fun file =>
    decide (asanPrefix <+: file.1) && (readAsanName file.1).isSome

/-- `grep -F`: some line contains the text. -/
def hasText (text : Line) (lines : List Line) : Bool :=
  lines.any fun line => decide (text <:+: line)

def checkFailedText : Line := "AddressSanitizer: CHECK failed: asan_report.cpp:227".toList
def exitCallbackText : Line := "fuzzer::Fuzzer::ExitCallback".toList
def asanErrorText : Line := "ERROR: AddressSanitizer".toList
def deadlySignalText : Line := "AddressSanitizer:DEADLYSIGNAL".toList
def anyCheckFailedText : Line := "AddressSanitizer: CHECK failed".toList
def libfuzzerErrorText : Line := "ERROR: libFuzzer".toList

def supervisorStopSuffix : Line := ".supervisor-stop".toList

def supervisorRecord (file : Line) : Line :=
  file ++ supervisorStopSuffix

/-- `^status=(72|137)$` -/
def stopStatuses : List Line := ["status=72".toList, "status=137".toList]

/-- `$config_id:$launch_id:$report_pid` -/
def shutdownIdentity (configId launchId reportPid : Line) : Line :=
  configId ++ ':' :: (launchId ++ ':' :: reportPid)

/-- The identity under which a log may be a harness shutdown. -/
def candidateIdentity (dir : LogDirectory) (file : Line × List Line) : Option Line :=
  match readAsanName file.1 with
  | some ⟨configId, some launchId, reportPid⟩ =>
      match dir.get (supervisorRecord file.1) with
      | some record =>
          if record.any stopStatuses.contains && hasText checkFailedText file.2
              && hasText exitCallbackText file.2
              && !(hasText asanErrorText file.2 || hasText deadlySignalText file.2) then
            some (shutdownIdentity configId launchId reportPid)
          else none
      | none => none
  | _ => none

/-- The keys of `harness_shutdown_candidates`. -/
def harnessShutdownCandidates (dir : LogDirectory) : List Line :=
  (asanLogs dir).filterMap (candidateIdentity dir)

/-! ## The error logs -/

def errorPrefix : Line := "error".toList

/-- `^error([0-9]+)$` -/
def errorLogPattern : List Piece :=
  [.text errorPrefix, .field Char.isDigit]

/-- `error_logs`: the files `logs/error*`. -/
def errorLogs (dir : LogDirectory) : List (Line × List Line) :=
  dir.entries.filter fun file => decide (errorPrefix <+: file.1)

/-- The config of an error log, empty where the name carries none. -/
def errorConfigId (filename : Line) : Line :=
  match capture errorLogPattern filename with
  | some [configId] => configId
  | _ => []

/-- `launch:pid` of every candidate of the config. -/
def shutdownLaunchPids (dir : LogDirectory) (configId : Line) : List Line :=
  if configId = [] then []
  else
    ((harnessShutdownCandidates dir).filter
        fun key => decide (configId ++ [':'] <+: key)).map
      fun key => key.drop (configId.length + 1)

/-- The two halves of `launch:pid`, as `split(values[i], identity, ":")`
gives them. -/
def splitLaunchPid (value : Line) : Line × Line :=
  (value.takeWhile (· != ':'),
    ((value.dropWhile (· != ':')).drop 1).takeWhile (· != ':'))

/-- Whether `shutdown[launch, pid]` is set. -/
def isShutdown (dir : LogDirectory) (configId launchId pid : Line) : Bool :=
  ((shutdownLaunchPids dir configId).map splitLaunchPid).contains (launchId, pid)

def launchPrefix : Line := "--- supervisor launch ".toList
def launchSuffix : Line := " ---".toList

/-- `^--- supervisor launch ([A-Za-z0-9_-]+) ---$` -/
def launchPattern : List Piece :=
  [.text launchPrefix, .field isLaunchIdChar, .text launchSuffix]

def exitPrefix : Line := "==".toList
def exitSuffix : Line := "== ERROR: libFuzzer: fuzz target exited".toList

/-- `^==([0-9]+)== ERROR: libFuzzer: fuzz target exited$` -/
def exitPattern : List Piece :=
  [.text exitPrefix, .field Char.isDigit, .text exitSuffix]

def exitSummary : Line := "SUMMARY: libFuzzer: fuzz target exited".toList

/-- A sanitizer or libFuzzer finding. -/
def isFinding (line : Line) : Bool :=
  decide (asanErrorText <:+: line) || decide (anyCheckFailedText <:+: line)
    || decide (deadlySignalText <:+: line) || decide (libfuzzerErrorText <:+: line)

def shutdownMarker : Line := "@@HARNESS_SHUTDOWN@@".toList

structure ScanState where
  launchId : Line
  suppressShutdownTail : Bool
  deriving DecidableEq, Repr

/-- The rules of the `awk` program after the one for exit lines. -/
def scanTail (s : ScanState) (line : Line) : ScanState × List Line :=
  if s.suppressShutdownTail && line == deadlySignalText then (s, [])
  else if s.suppressShutdownTail && line == exitSummary then
    ({ s with suppressShutdownTail := false }, [])
  else
    ({ s with suppressShutdownTail := false }, if isFinding line then [line] else [])

/-- The `awk` program on one line. -/
def scanLine (dir : LogDirectory) (configId : Line) (s : ScanState) (line : Line) :
    ScanState × List Line :=
  match capture launchPattern line with
  | some [launchId] => (⟨launchId, false⟩, [])
  | _ =>
      match capture exitPattern line with
      | some [pid] =>
          if isShutdown dir configId s.launchId pid then
            ({ s with suppressShutdownTail := true },
              [shutdownMarker ++ ' ' :: shutdownIdentity configId s.launchId pid])
          else scanTail s line
      | _ => scanTail s line

/-- The `awk` program that scans the error log of a config. -/
def errorScanner (dir : LogDirectory) (configId : Line) : LineMachine ScanState where
  start := ⟨[], false⟩
  step := scanLine dir configId

/-- `error_scan` -/
def errorScan (dir : LogDirectory) : List Line :=
  (errorLogs dir).flatMap fun file => (errorScanner dir (errorConfigId file.1)).run file.2

def isBlank (c : Char) : Bool :=
  c == ' ' || c == '\t'

/-- `read -r marker identity` -/
def readMarker (line : Line) : Line × Line :=
  let line := line.dropWhile isBlank
  (line.takeWhile (!isBlank ·),
    ((line.dropWhile (!isBlank ·)).dropWhile isBlank).rdropWhile isBlank)

/-- The keys of `confirmed_shutdowns`. -/
def confirmedShutdowns (dir : LogDirectory) : List Line :=
  (errorScan dir).filterMap fun line =>
    if (readMarker line).1 = shutdownMarker then some (readMarker line).2 else none

/-- `grep -v '^@@HARNESS_SHUTDOWN@@ '`, then `sort -u`. -/
def errorFindings (grep : Grep) (dir : LogDirectory) : List Line :=
  sortUnique (grep.printed (fun line => !decide (shutdownMarker ++ [' '] <+: line))
    (errorScan dir))

/-! ## The report -/

def isHarnessShutdown (dir : LogDirectory) (file : Line × List Line) : Bool :=
  match candidateIdentity dir file with
  | some identity => (confirmedShutdowns dir).contains identity
  | none => false

/-- `asan_report_logs` -/
def asanReportLogs (dir : LogDirectory) : List (Line × List Line) :=
  (asanLogs dir).filter (!isHarnessShutdown dir ·)

def runtimeErrorText : Line := ": runtime error: ".toList
def warningText : Line := "WARNING".toList

def isHexDigit (c : Char) : Bool :=
  c.isDigit || ('a' ≤ c && c ≤ 'f') || ('A' ≤ c && c ≤ 'F')

/-- `s/(0x)[0]{12}/null/g` -/
def nullAddress : Rewrite := ⟨"0x".toList, (· == '0'), 12, some 12, "null".toList, by decide⟩

/-- `s/(0x)[0-9a-fA-F]{3,}/????/g` -/
def anyAddress : Rewrite := ⟨"0x".toList, isHexDigit, 3, none, "????".toList, by decide⟩

/-- `s/(src_)[0-9]+/src_?/g` -/
def sourceTree : Rewrite := ⟨"src_".toList, Char.isDigit, 1, none, "src_?".toList, by decide⟩

/-- `s/(run_)[0-9]+/run_?/g` -/
def runTree : Rewrite := ⟨"run_".toList, Char.isDigit, 1, none, "run_?".toList, by decide⟩

/-- A `: runtime error: ` line without addresses and tree numbers. -/
def cleanRuntimeError (line : Line) : Line :=
  runTree.apply (sourceTree.apply (anyAddress.apply (nullAddress.apply line)))

/-- `grep -h ": runtime error: "` on the recognised logs. -/
def runtimeLines (grep : Grep) (dir : LogDirectory) : List Line :=
  (asanLogs dir).flatMap fun file =>
    grep.printed (fun line => decide (runtimeErrorText <:+: line)) (grep.text file.2)

/-- What the second pipeline appends to `asanfiltered.log`. -/
def runtimeErrors (grep : Grep) (dir : LogDirectory) : List Line :=
  sortUnique ((runtimeLines grep dir).map cleanRuntimeError)

/-- What the script leaves behind and prints. -/
structure SanitizerReport where
  asanfiltered : List Line
  addressSanitizer : Nat
  warnings : Nat
  ubsan : Nat
  libFuzzer : Nat
  harnessShutdown : Nat
  deriving DecidableEq, Repr

def isAsanError (line : Line) : Bool :=
  decide (asanErrorText <:+: line) || decide (anyCheckFailedText <:+: line)
    || decide (deadlySignalText <:+: line)

/-- The script, run on a log directory. -/
def asanProcess (grep : Grep) (aggregate : List Line → List Line) (dir : LogDirectory) :
    SanitizerReport :=
  let asanErrorCount := ((errorFindings grep dir).filter isAsanError).length
  let libfuzzerCount :=
    ((errorFindings grep dir).filter fun line => decide (libfuzzerErrorText <:+: line)).length
  if (asanLogs dir).isEmpty then
    ⟨[], asanErrorCount, 0, 0, libfuzzerCount, 0⟩
  else
    let reports :=
      if (asanReportLogs dir).isEmpty then []
      else aggregate ((asanReportLogs dir).flatMap Prod.snd)
    let asanfiltered := reports ++ runtimeErrors grep dir
    { asanfiltered
      addressSanitizer := (asanfiltered.filter isAsanError).length + asanErrorCount
      warnings := (asanfiltered.filter fun line => decide (warningText <:+: line)).length
      ubsan := (asanfiltered.filter fun line => decide (runtimeErrorText <:+: line)).length
      libFuzzer := libfuzzerCount
      harnessShutdown := ((asanLogs dir).filter (isHarnessShutdown dir)).length }

end LighttpdFuzz

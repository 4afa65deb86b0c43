import LighttpdFuzz.AsanProcess
import LighttpdFuzz.Regex
import LighttpdFuzz.TextRules

/-!
# The report pipeline

The end of `asanProcess.sh`: the lines of all logs that are left go through
line filters, are joined to one text, cleaned of what differs from process
to process, cut into reports at the separator line, and sorted. The
`: runtime error: ` lines have a pipeline of their own, with fewer rules.

`asanProcess` takes the first pipeline as a parameter; `asanProcess_eq`
puts the two together for logs that are text and no harness shutdowns.
-/

namespace LighttpdFuzz

open LineTools

/-! ## Line filters -/

/-- The texts of the four `grep -v` on fixed text. -/
def droppedTexts : List Line :=
  ["SUMMARY: UndefinedBehaviorSanitizer: undefined-behavior ".toList, runtimeErrorText,
    ": note: pointer points here".toList, "note: nonnull attribute specified here".toList]

/-- `[0-9a-f]` -/
def isLowerHex (c : Char) : Bool := c.isDigit || ('a' ≤ c && c ≤ 'f')

/-- `\s` -/
def isSpaceClass (c : Char) : Bool := c == ' ' || ('\t' ≤ c && c ≤ '\r')

/-- `(.{1,2}[0-9a-f]{2,2}){32}` -/
def hexDumpPattern : Regex :=
  .times 32 (.seqAll [.many (fun _ => true) 1 (some 2), .many isLowerHex 2 (some 2)])

/-- `\s{1,100}\^\s` -/
def caretPattern : Regex :=
  .seqAll [.many isSpaceClass 1 (some 100), .char (· == '^'), .char isSpaceClass]

/-- The line passes all filters. -/
def keepsLine (line : Line) : Bool :=
  !(droppedTexts.any fun text => decide (text <:+: line))
    && !(hexDumpPattern.search none line).isSome && !(caretPattern.search none line).isSome

/-! ## Rules -/

/-- `s/(==)[0-9]{3,}(==)/==????==/g` -/
def processId : Rule where
  leads := ["==".toList]
  cls := Char.isDigit
  atLeast := 3
  atMost := none
  trail := "==".toList
  result := "==????==".toList
  leads_ne_nil := by decide
  trail_stops := by decide

/-- `s/([Tt]hread T)[0-9]{1,3}/thread T???/g` -/
def threadNumber : Rule where
  leads := ["Thread T".toList, "thread T".toList]
  cls := Char.isDigit
  atLeast := 1
  atMost := some 3
  trail := []
  result := "thread T???".toList
  leads_ne_nil := by decide
  trail_stops := by decide

/-- `s/\(BuildId: [0-9a-f]{15,40}\)/\(BuildId\: ?????????????\)/g` -/
def buildId : Rule where
  leads := ["(BuildId: ".toList]
  cls := isLowerHex
  atLeast := 15
  atMost := some 40
  trail := ")".toList
  result := "(BuildId: ?????????????)".toList
  leads_ne_nil := by decide
  trail_stops := by decide

/-- The rules on the joined lines. -/
def cleanText (text : Line) : Line :=
  buildId.apply (runTree.apply (sourceTree.apply (threadNumber.apply
    (anyAddress.apply (processId.apply (nullAddress.apply text))))))

/-- What stands for the end of a line. -/
def hashes : Line := "####".toList

def separatorLine : Line :=
  "=================================================================".toList

/-- `s/####====…/\n====…/g` -/
def cutRule : Rewrite := .literal (hashes ++ separatorLine) ('\n' :: separatorLine) (by decide)

/-- `s/#{3,12}/####/g` -/
def squeezeRule : Rewrite := ⟨"###".toList, (· == '#'), 0, some 9, hashes, by decide⟩

/-- `s/####/\n/g` -/
def expandRule : Rewrite := .literal hashes ['\n'] (by decide)

/-! ## The pipelines -/

/-- The lines that pass the filters, cleaned. -/
def cleanLines (lines : List Line) : List Line := (lines.filter keepsLine).map cleanText

/-- A text, cut into reports. -/
def cutReports (text : Line) : List Line :=
  ((cutRule.apply text).splitOn '\n').map squeezeRule.apply

/-- The lines that `sort -u` gets to see: the reports, each joined to one line. -/
def reportsOf (lines : List Line) : List Line :=
  let kept := lines.filter keepsLine
  if kept = [] then [] else cutReports (cleanText (hashes.intercalate kept))

/-- A report as it stands in `asanfiltered.log`. -/
def expandReport (report : Line) : List Line := (expandRule.apply report).splitOn '\n'

/-- The first pipeline. -/
def normalizeReports (lines : List Line) : List Line :=
  (sortUnique (reportsOf lines)).flatMap expandReport

/-- What the second pipeline sorts. -/
def runtimeErrorLines (lines : List Line) : List Line :=
  (lines.filter fun line => decide (runtimeErrorText <:+: line)).map cleanRuntimeError

def filteredLog (logs : List (List Line)) : List Line :=
  normalizeReports logs.flatten ++ sortUnique (runtimeErrorLines logs.flatten)

/-- The report on a list of logs without harness shutdowns; `findings` are
those of the error logs. -/
def reportOf (findings : List Line) (logs : List (List Line)) : SanitizerReport where
  asanfiltered := filteredLog logs
  addressSanitizer :=
    ((filteredLog logs).filter isAsanError).length + (findings.filter isAsanError).length
  warnings := ((filteredLog logs).filter fun line => decide (warningText <:+: line)).length
  ubsan := ((filteredLog logs).filter fun line => decide (runtimeErrorText <:+: line)).length
  libFuzzer := (findings.filter fun line => decide (libfuzzerErrorText <:+: line)).length
  harnessShutdown := 0

theorem asanProcess_eq {grep : Grep} {dir : LogDirectory} (hlogs : asanLogs dir ≠ [])
    (htext : ∀ file ∈ asanLogs dir, ∀ line ∈ file.2, '\x00' ∉ line ∧ grep.encoded line = true)
    (hreal : ∀ file ∈ asanLogs dir, isHarnessShutdown dir file = false) :
    asanProcess grep normalizeReports dir
      = reportOf (errorFindings grep dir) ((asanLogs dir).map Prod.snd) := by
  have hreports : asanReportLogs dir = asanLogs dir :=
    List.filter_eq_self.mpr fun file hfile => by rw [hreal file hfile]; rfl
  have hnone : (asanLogs dir).filter (isHarnessShutdown dir) = [] :=
    List.filter_eq_nil_iff.mpr fun file hfile => by rw [hreal file hfile]; decide
  have hempty : ¬ (asanLogs dir).isEmpty = true := mt List.isEmpty_iff.mp hlogs
  have hlines : (asanLogs dir).flatMap Prod.snd = ((asanLogs dir).map Prod.snd).flatten :=
    List.flatMap_def ..
  have hprinted : runtimeLines grep dir = ((asanLogs dir).flatMap Prod.snd).filter
      fun line => decide (runtimeErrorText <:+: line) := by
    rw [runtimeLines, List.filter_flatMap]
    refine List.flatMap_congr fun file hfile => ?_
    rw [grep.text_eq file.2 fun line hline => (htext file hfile line hline).1, Grep.printed]
    exact List.filter_eq_self.mpr fun line hline =>
      (htext file hfile line (List.mem_of_mem_filter hline)).2
  have hfile : normalizeReports ((asanLogs dir).flatMap Prod.snd) ++ runtimeErrors grep dir
      = filteredLog ((asanLogs dir).map Prod.snd) := by
    rw [runtimeErrors, hprinted, hlines]
    rfl
  unfold asanProcess
  simp only [if_neg hempty, hreports, hfile, hnone]
  rfl

end LighttpdFuzz

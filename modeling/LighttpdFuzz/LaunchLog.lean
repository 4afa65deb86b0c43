import LighttpdFuzz.ErrorScan
import LighttpdFuzz.SupervisorLoop

/-!
# Launches in the error logs

The supervisor names a launch in the error log of the configuration before
the child writes there, and once more when it stops the child.
`asanProcess.sh` takes the launch that was named last for the one that an
exit line belongs to. In between there may be any output, partial lines,
restarts, and rotations, which empty the log.

`Logged` has the states of the supervisor with the error logs, where the
children write what they like as long as no line of theirs names a launch,
or the exit of another process. `Traced` is what each log keeps; so the
launch that is read off a log is the launch of the process that the exit
line names (`exit_line_traced`).
-/

namespace LighttpdFuzz

open LineTools

/-! ## Logs -/

/-- A log: its complete lines, and what has been written after them. -/
structure ErrorLog where
  lines : List Text
  tail : Text
  complete : ∀ line ∈ lines, '\n' ∉ line
  unfinished : '\n' ∉ tail

namespace ErrorLog

/-- The content of the file. -/
def text (log : ErrorLog) : Text := log.lines.flatMap (· ++ ['\n']) ++ log.tail

def empty : ErrorLog := ⟨[], [], by simp, by simp⟩

def endLine (log : ErrorLog) : ErrorLog where
  lines := log.lines ++ [log.tail]
  tail := []
  complete := List.forall_mem_append.mpr
    ⟨log.complete, List.forall_mem_singleton.mpr log.unfinished⟩
  unfinished := List.not_mem_nil

/-- One more character. -/
def put (log : ErrorLog) (c : Char) : ErrorLog :=
  if h : c = '\n' then log.endLine
  else
    { log with
      tail := log.tail ++ [c]
      unfinished := fun hmem => (List.mem_append.mp hmem).elim log.unfinished fun hc =>
        h (List.mem_singleton.mp hc).symm }

/-- `>>` -/
def append (log : ErrorLog) (text : Text) : ErrorLog := text.foldl put log

theorem append_cons (log : ErrorLog) (c : Char) (t : Text) :
    log.append (c :: t) = (log.put c).append t := rfl

theorem put_newline (log : ErrorLog) : log.put '\n' = log.endLine := dif_pos rfl

theorem tail_put {c : Char} (hc : c ≠ '\n') (log : ErrorLog) :
    (log.put c).tail = log.tail ++ [c] := by
  rw [put, dif_neg hc]

theorem lines_put {c : Char} (hc : c ≠ '\n') (log : ErrorLog) :
    (log.put c).lines = log.lines := by
  rw [put, dif_neg hc]

/-- What is appended to the log is appended to the file. -/
theorem text_append (t : Text) : ∀ log : ErrorLog, (log.append t).text = log.text ++ t := by
  induction t with
  | nil => simp [append]
  | cons c t ih =>
      intro log
      have hput : (log.put c).text = log.text ++ [c] := by
        by_cases hc : c = '\n'
        · subst hc
          simp [put_newline, text, endLine]
        · simp [text, tail_put hc, lines_put hc]
      rw [append, List.foldl_cons, ← append, ih, hput]
      simp

theorem tail_append {t : Text} (h : '\n' ∉ t) : ∀ log : ErrorLog,
    (log.append t).tail = log.tail ++ t := by
  induction t with
  | nil => simp [append]
  | cons c t ih =>
      obtain ⟨hc, ht⟩ := not_or.mp (List.mem_cons.not.mp h)
      intro log
      rw [append_cons, ih ht, tail_put (Ne.symm hc)]
      simp

/-- A whole line ends the line that was begun. -/
theorem append_line {line : Text} (h : '\n' ∉ line) : ∀ log : ErrorLog,
    (log.append (line ++ ['\n'])).lines = log.lines ++ [log.tail ++ line]
      ∧ (log.append (line ++ ['\n'])).tail = [] := by
  induction line with
  | nil =>
      intro log
      simp [append, put_newline, endLine]
  | cons c line ih =>
      obtain ⟨hc, hline⟩ := not_or.mp (List.mem_cons.not.mp h)
      intro log
      obtain ⟨hlines, htail⟩ := ih hline (log.put c)
      rw [lines_put (Ne.symm hc), tail_put (Ne.symm hc), List.append_assoc] at hlines
      exact ⟨hlines, htail⟩

theorem linesFrom_of_notMem {t : Text} (h : '\n' ∉ t) : ∀ {line rest : Text},
    linesFrom line (t ++ '\n' :: rest) = (line ++ t) :: linesFrom [] rest := by
  induction t with
  | nil => simp [linesFrom]
  | cons c t ih =>
      obtain ⟨hc, ht⟩ := not_or.mp (List.mem_cons.not.mp h)
      intro line rest
      rw [List.cons_append, linesFrom, if_neg (Ne.symm hc), ih ht]
      simp

theorem linesFrom_tail {t : Text} (h : '\n' ∉ t) : ∀ {line : Text},
    linesFrom line t = if line ++ t = [] then [] else [line ++ t] := by
  induction t with
  | nil => simp [linesFrom]
  | cons c t ih =>
      obtain ⟨hc, ht⟩ := not_or.mp (List.mem_cons.not.mp h)
      intro line
      rw [linesFrom, if_neg (Ne.symm hc), ih ht]
      simp

/-- What the tools see: an unfinished line is a line. -/
theorem linesOf_text (log : ErrorLog) :
    linesOf log.text = log.lines ++ if log.tail = [] then [] else [log.tail] := by
  obtain ⟨lines, tail, hcomplete, htail⟩ := log
  unfold linesOf text
  simp only
  induction lines with
  | nil =>
      rw [List.flatMap_nil, List.nil_append, linesFrom_tail htail]
      rfl
  | cons line lines ih =>
      obtain ⟨hline, hlines⟩ := List.forall_mem_cons.mp hcomplete
      rw [List.flatMap_cons, List.append_assoc, List.append_assoc, List.singleton_append,
        linesFrom_of_notMem hline, ih hlines]
      rfl

end ErrorLog

/-! ## A campaign with its logs -/

/-- `launch_id` -/
def Campaign.launchId (campaign : Campaign) (launchNumber : Nat) : Text :=
  campaign.campaignId ++ "-".toList ++ Text.ofNat launchNumber

/-- The line in front of the output of a restarted child. -/
def restartLine (config : Nat) (time : Text) : Text :=
  "--- supervisor restarting config ".toList ++ Text.ofNat config ++ " at ".toList ++ time
    ++ " ---".toList

/-- What `run_fuzzer` does to the error log, with `LOG_OUTPUT`. -/
def ErrorLog.launch (campaign : Campaign) (config launchNumber : Nat) (time : Text)
    (log : ErrorLog) : Supervisor.LaunchKind → ErrorLog
  | .initial => empty.append (launchLine (campaign.launchId launchNumber) ++ ['\n'])
  | .restart =>
      (log.append ('\n' :: restartLine config time ++ ['\n'])).append
        (launchLine (campaign.launchId launchNumber) ++ ['\n'])

abbrev ErrorLogs := Nat → ErrorLog

/-- A line that a process may write: it names no launch, and no exit but
its own. -/
structure Honest (pid : Nat) (line : Text) : Prop where
  launch : ∀ launchId, IsLaunchId launchId → line ≠ launchLine launchId
  exit : ∀ number, line = exitLine number → number = Text.ofNat pid

namespace Supervisor

/-- A child of a configuration, in its launch. -/
def Launched (campaign : Campaign) (s : Supervisor) (config pid launchNumber : Nat) : Prop :=
  s.fuzzerConfigs.get pid = some config
    ∧ s.fuzzerSanitizerPrefixes.get pid = some (campaign.sanitizerPrefix config launchNumber)

/-- The logs after a visit of the monitoring loop: if it has launched a
child, the log of the configuration says so. -/
def logsAfter (campaign : Campaign) (s s' : Supervisor) (time : Text) (logs : ErrorLogs) :
    ErrorLogs := fun config =>
  if s'.launchCounts.get config = s.launchCounts.get config then logs config
  else (logs config).launch campaign config ((s'.launchCounts.get config).getD 0) time .restart

/-- The states of the supervisor with the error logs. -/
inductive Logged (campaign : Campaign) : Supervisor → ErrorLogs → Prop
  | start {logs : ErrorLogs} : Logged campaign .init logs
  /-- The first launch of a configuration. -/
  | launch {s s' : Supervisor} {logs : ErrorLogs} {config : Nat} {attempt : LaunchAttempt}
      (time : Text) : Logged campaign s logs →
      (∀ pid, s.fuzzerConfigs.get pid ≠ some config) →
      runFuzzer campaign s config .initial attempt = (s', true) →
      Logged campaign s' (Function.update logs config ((logs config).launch campaign config
        ((s'.launchCounts.get config).getD 0) time .initial))
  /-- A child is looked after. -/
  | visit {s s' : Supervisor} {logs : ErrorLogs} {index : Nat} {e : ChildVisit} (time : Text) :
      Logged campaign s logs → '\n' ∉ time → visit campaign s index e = .ok s' →
      Logged campaign s' (logsAfter campaign s s' time logs)
  /-- A child writes; at no moment is the line that it writes on a lie. -/
  | output {s : Supervisor} {logs : ErrorLogs} {config pid launchNumber : Nat} {text : Text} :
      Logged campaign s logs → Launched campaign s config pid launchNumber →
      (∀ before after, text = before ++ after →
        Honest pid ((logs config).append before).tail) →
      Logged campaign s (Function.update logs config ((logs config).append text))
  /-- `cleanup` names the launch again. -/
  | mark {s : Supervisor} {logs : ErrorLogs} {config pid launchNumber : Nat} :
      Logged campaign s logs → Launched campaign s config pid launchNumber →
      Logged campaign s (Function.update logs config
        ((logs config).append (launchLine (campaign.launchId launchNumber) ++ ['\n'])))
  /-- `logrotate` copies the log and truncates it. -/
  | rotate {s : Supervisor} {logs : ErrorLogs} (config : Nat) : Logged campaign s logs →
      Logged campaign s (Function.update logs config .empty)

end Supervisor

/-! ## Lines that cannot be confused -/

theorem launchLine_ne_nil (launchId : Text) : launchLine launchId ≠ [] := by
  intro h
  have hhead := congrArg List.head? h
  rw [head_launchLine] at hhead
  cases hhead

theorem exitLine_ne_nil (number : Text) : exitLine number ≠ [] := by
  intro h
  have hhead := congrArg List.head? h
  rw [head_exitLine] at hhead
  cases hhead

theorem restartLine_ne_launchLine (config : Nat) (time launchId : Text) :
    restartLine config time ≠ launchLine launchId := by
  intro h
  have hchar : (restartLine config time)[15]? = (launchLine launchId)[15]? := by rw [h]
  have hr : (restartLine config time)[15]? = some 'r' := rfl
  have hl : (launchLine launchId)[15]? = some 'l' := rfl
  rw [hr, hl] at hchar
  cases hchar

theorem restartLine_ne_exitLine (config : Nat) (time number : Text) :
    restartLine config time ≠ exitLine number := by
  intro h
  have hhead := congrArg List.head? h
  rw [head_exitLine] at hhead
  cases hhead

theorem newline_notMem_launchLine {launchId : Text} (h : IsLaunchId launchId) :
    '\n' ∉ launchLine launchId := by
  have hid : '\n' ∉ launchId := h.notMem rfl
  have hfirst : '\n' ∉ launchPrefix := by decide
  have hlast : '\n' ∉ launchSuffix := by decide
  simp only [launchLine, List.mem_append, hfirst, hid, hlast, or_false, not_false_eq_true]

theorem isLaunchId_launchId {campaign : Campaign} (hid : IsLaunchId campaign.campaignId)
    (n : Nat) : IsLaunchId (campaign.launchId n) := by
  refine ⟨by simp [Campaign.launchId], fun c hc => ?_⟩
  rcases List.mem_append.mp hc with hc | hc
  · rcases List.mem_append.mp hc with hc | hc
    · exact hid.2 c hc
    · rw [List.mem_singleton.mp hc]
      rfl
  · simp [isLaunchIdChar, Char.isAlphanum, Text.isDigit_ofNat hc]

/-- What a launch line is before its first space. -/
theorem launchLine_split (launchId : Text) : ∃ rest : Text,
    launchLine launchId = "---".toList ++ ' ' :: rest := ⟨_, rfl⟩

/-- A launch line behind something else is no launch line. -/
theorem append_launchLine_ne {t a b : Text} (ht : t ≠ []) (ha : IsLaunchId a)
    (hb : IsLaunchId b) : t ++ launchLine a ≠ launchLine b := by
  intro h
  have hspaces : ∀ {l : Text}, IsLaunchId l → (launchLine l).count ' ' = 4 := by
    intro l hl
    have hnone : l.count ' ' = 0 := List.count_eq_zero.mpr (hl.notMem rfl)
    have hfirst : launchPrefix.count ' ' = 3 := by decide
    have hlast : launchSuffix.count ' ' = 1 := by decide
    rw [launchLine, List.count_append, List.count_append, hnone, hfirst, hlast]
  have hnot : ' ' ∉ t := by
    rw [← List.count_eq_zero]
    have hcount := congrArg (List.count ' ') h
    rw [List.count_append, hspaces ha, hspaces hb] at hcount
    omega
  obtain ⟨rest, hrest⟩ := launchLine_split a
  obtain ⟨rest', hrest'⟩ := launchLine_split b
  rw [hrest, hrest', ← List.append_assoc] at h
  have hsplit := split_unique (a := t ++ "---".toList) (by simp [hnot]) (by simp) h
  exact ht (List.append_left_eq_self.mp hsplit.1)

theorem append_launchLine_ne_exitLine (t a number : Text) :
    t ++ launchLine a ≠ exitLine number := by
  intro h
  have hlast := congrArg List.getLast? h
  have hl : (t ++ launchLine a).getLast? = some '-' := by
    rw [launchLine, ← List.append_assoc, ← List.append_assoc,
      Text.getLast?_append_word (by simp [launchSuffix])]
    rfl
  have he : (exitLine number).getLast? = some 'd' := by
    rw [exitLine, ← List.append_assoc, Text.getLast?_append_word (by decide)]
    rfl
  rw [hl, he] at hlast
  cases hlast

/-- A process may write its own exit line. -/
theorem honest_exitLine {pid : Nat} {t rest : Text}
    (h : t ++ rest = exitLine (Text.ofNat pid)) : Honest pid t := by
  constructor
  · intro launchId _ hline
    have hhead := congrArg List.head? h
    rw [hline, List.head?_append, head_launchLine, head_exitLine] at hhead
    cases hhead
  · intro number hline
    rw [hline, exitLine, exitLine, List.append_assoc, List.append_cancel_left_eq,
      List.append_assoc] at h
    rcases List.append_eq_append_iff.mp h with ⟨m, hdigits, hsuffix⟩ | ⟨m, hnumber, hsuffix⟩
    · cases m with
      | nil => rw [hdigits, List.append_nil]
      | cons c m =>
          have hc : c = '=' := (List.head_eq_of_cons_eq hsuffix).symm
          have hdigit : c.isDigit = true := Text.isDigit_ofNat (n := pid) (by simp [hdigits])
          rw [hc] at hdigit
          cases hdigit
    · have hlength := congrArg List.length hsuffix
      rw [List.length_append, List.length_append] at hlength
      rw [hnumber, List.eq_nil_of_length_eq_zero (by omega : m.length = 0), List.append_nil]

theorem honest_nil {pid : Nat} : Honest pid [] :=
  ⟨fun launchId _ hline => launchLine_ne_nil launchId hline.symm,
    fun number hline => absurd hline.symm (exitLine_ne_nil number)⟩

/-! ## Traced logs -/

section Traced

open Supervisor

variable {campaign : Campaign} {history history' : List SupervisorEvent} {config n : Nat}
  {log : ErrorLog}

/-- The exit that the line names is that of a launched process. -/
def OfLaunch (campaign : Campaign) (history : List SupervisorEvent) (config n : Nat)
    (line : Text) : Prop :=
  ∀ number, line = exitLine number → ∃ pid, number = Text.ofNat pid
    ∧ .launched config pid (campaign.sanitizerPrefix config n) ∈ history

/-- The log of a configuration in its launch `n`. -/
structure Traced (campaign : Campaign) (history : List SupervisorEvent) (config n : Nat)
    (log : ErrorLog) : Prop where
  lines : ∀ pre line post, log.lines = pre ++ line :: post → ∀ launchId,
    MostRecentLaunch pre launchId →
    (∃ number, line = exitLine number) →
    ∃ k, launchId = campaign.launchId k ∧ OfLaunch campaign history config k line
  now : ∀ launchId, MostRecentLaunch log.lines launchId → launchId = campaign.launchId n
  exit : OfLaunch campaign history config n log.tail
  plain : ∀ launchId, IsLaunchId launchId → log.tail ≠ launchLine launchId

theorem OfLaunch.mono {line : Text} (h : OfLaunch campaign history config n line)
    (hhistory : history ⊆ history') : OfLaunch campaign history' config n line :=
  fun number hline => (h number hline).imp fun _ hpid => ⟨hpid.1, hhistory hpid.2⟩

theorem Traced.mono (h : Traced campaign history config n log) (hhistory : history ⊆ history') :
    Traced campaign history' config n log where
  lines pre line post hlines launchId hrecent hexit :=
    (h.lines pre line post hlines launchId hrecent hexit).imp fun _ hk =>
      ⟨hk.1, hk.2.mono hhistory⟩
  now := h.now
  exit := h.exit.mono hhistory
  plain := h.plain

theorem traced_empty : Traced campaign history config n .empty where
  lines pre line post hlines := by simp [ErrorLog.empty] at hlines
  now launchId hrecent := absurd hrecent not_mostRecentLaunch_nil
  exit number hline := absurd hline.symm (exitLine_ne_nil number)
  plain launchId _ hline := absurd hline.symm (launchLine_ne_nil launchId)

/-- One more line is complete; a launch `n'` may begin with it. -/
theorem Traced.addLine (h : Traced campaign history config n log) {log' : ErrorLog} {line : Text}
    {n' : Nat} (hlines : log'.lines = log.lines ++ [line]) (htail : log'.tail = [])
    (hexit : OfLaunch campaign history config n line)
    (hnow : ∀ launchId, MostRecentLaunch (log.lines ++ [line]) launchId →
      launchId = campaign.launchId n') : Traced campaign history config n' log' where
  lines pre line' post hsplit launchId hrecent hline := by
    rw [hlines] at hsplit
    obtain rfl | ⟨post, last, rfl⟩ := List.eq_nil_or_concat post
    · obtain ⟨rfl, heq⟩ := List.append_inj' hsplit rfl
      obtain rfl := List.head_eq_of_cons_eq heq
      exact ⟨n, h.now launchId hrecent, hexit⟩
    · rw [List.concat_eq_append, ← List.cons_append, ← List.append_assoc] at hsplit
      exact h.lines pre line' post (List.append_inj' hsplit rfl).1 launchId hrecent hline
  now := by
    rw [hlines]
    exact hnow
  exit := by
    rw [htail]
    exact fun number hline => absurd hline.symm (exitLine_ne_nil number)
  plain := by
    rw [htail]
    exact fun launchId _ hline => absurd hline.symm (launchLine_ne_nil launchId)

/-- A line that names no launch. -/
theorem Traced.addPlain (h : Traced campaign history config n log) {log' : ErrorLog} {line : Text}
    (hlines : log'.lines = log.lines ++ [line]) (htail : log'.tail = [])
    (hexit : OfLaunch campaign history config n line)
    (hplain : ∀ launchId, IsLaunchId launchId → line ≠ launchLine launchId) :
    Traced campaign history config n log' :=
  h.addLine hlines htail hexit fun launchId hrecent =>
    h.now launchId ((mostRecentLaunch_append_other hplain).mp hrecent)

theorem Traced.endLine (h : Traced campaign history config n log) :
    Traced campaign history config n log.endLine :=
  h.addPlain rfl rfl h.exit h.plain

/-- What a launched process writes. -/
theorem Traced.append {pid : Nat} {text : Text}
    (hpid : .launched config pid (campaign.sanitizerPrefix config n) ∈ history) :
    ∀ {log : ErrorLog}, Traced campaign history config n log →
    (∀ before after, text = before ++ after → Honest pid (log.append before).tail) →
    Traced campaign history config n (log.append text) := by
  induction text with
  | nil => exact fun h _ => h
  | cons c text ih =>
      intro log h hhonest
      have hput : Traced campaign history config n (log.put c) := by
        by_cases hc : c = '\n'
        · rw [hc, ErrorLog.put_newline]
          exact h.endLine
        · have hnow := h.now
          have hpart : Honest pid (log.put c).tail := hhonest [c] text rfl
          refine ⟨?_, ?_, fun number hline => ⟨pid, hpart.exit number hline, hpid⟩, hpart.launch⟩
          · rw [ErrorLog.lines_put hc]
            exact h.lines
          · rw [ErrorLog.lines_put hc]
            exact hnow
      exact ih hput fun before after heq => hhonest (c :: before) after (by rw [heq]; rfl)

/-- The launch is named; what was begun before it is no matter. -/
theorem Traced.mark (h : Traced campaign history config n log)
    (hid : IsLaunchId campaign.campaignId) :
    Traced campaign history config n
      (log.append (launchLine (campaign.launchId n) ++ ['\n'])) := by
  have hlaunch := isLaunchId_launchId hid n
  obtain ⟨hlines, htail⟩ := ErrorLog.append_line (newline_notMem_launchLine hlaunch) log
  have hexit : OfLaunch campaign history config n (log.tail ++ launchLine (campaign.launchId n)) :=
    fun number hline => absurd hline (append_launchLine_ne_exitLine _ _ _)
  by_cases hempty : log.tail = []
  · refine h.addLine hlines htail hexit fun launchId hrecent => ?_
    rw [hempty, List.nil_append] at hrecent
    exact (mostRecentLaunch_append_launchLine hlaunch).mp hrecent
  · exact h.addPlain hlines htail hexit fun launchId hother =>
      append_launchLine_ne hempty hlaunch hother

/-- A new launch is named on a line of its own. -/
theorem Traced.announce (h : Traced campaign history config n log) (hempty : log.tail = [])
    (hid : IsLaunchId campaign.campaignId) (n' : Nat) :
    Traced campaign history config n'
      (log.append (launchLine (campaign.launchId n') ++ ['\n'])) := by
  have hlaunch := isLaunchId_launchId hid n'
  obtain ⟨hlines, htail⟩ := ErrorLog.append_line (newline_notMem_launchLine hlaunch) log
  refine h.addLine hlines htail (fun number hline => ?_) fun launchId hrecent => ?_
  · exact absurd hline (append_launchLine_ne_exitLine _ _ _)
  · rw [hempty, List.nil_append] at hrecent
    exact (mostRecentLaunch_append_launchLine hlaunch).mp hrecent

/-- A restart ends the line that was begun and names the new launch. -/
theorem Traced.restart (h : Traced campaign history config n log)
    (hid : IsLaunchId campaign.campaignId) {time : Text} (htime : '\n' ∉ time) (n' : Nat) :
    Traced campaign history config n' (log.launch campaign config n' time .restart) := by
  have hnewline : '\n' ∉ restartLine config time := by
    have hdigits : '\n' ∉ Text.ofNat config := fun hmem => by
      cases Text.isDigit_ofNat hmem
    have hfirst : '\n' ∉ "--- supervisor restarting config ".toList := by decide +kernel
    have hmiddle : '\n' ∉ " at ".toList := by decide
    have hlast : '\n' ∉ " ---".toList := by decide
    exact List.not_mem_append (List.not_mem_append (List.not_mem_append
      (List.not_mem_append hfirst hdigits) hmiddle) htime) hlast
  obtain ⟨hlines, htail⟩ := ErrorLog.append_line hnewline log.endLine
  have hbanner : Traced campaign history config n
      (log.endLine.append (restartLine config time ++ ['\n'])) :=
    h.endLine.addPlain hlines htail
      (fun number hline => absurd hline (restartLine_ne_exitLine _ _ _))
      fun launchId _ => restartLine_ne_launchLine _ _ _
  have heq : log.append ('\n' :: restartLine config time ++ ['\n'])
      = log.endLine.append (restartLine config time ++ ['\n']) := by
    rw [List.cons_append, ErrorLog.append_cons, ErrorLog.put_newline]
  rw [ErrorLog.launch, heq]
  exact hbanner.announce htail hid n'

theorem traced_initial (hid : IsLaunchId campaign.campaignId) (time : Text) :
    Traced campaign history config n (log.launch campaign config n time .initial) :=
  (traced_empty (n := n)).announce rfl hid n

end Traced

/-! ## The supervisor -/

namespace Supervisor

/-- `t` has the children, the launches and at least the history of `s`. -/
structure Agrees (s t : Supervisor) : Prop where
  configs : t.fuzzerConfigs = s.fuzzerConfigs
  prefixes : t.fuzzerSanitizerPrefixes = s.fuzzerSanitizerPrefixes
  counts : t.launchCounts = s.launchCounts
  history : s.history ⊆ t.history

/-- Each child is that of the last launch of its configuration. -/
structure Current (campaign : Campaign) (s : Supervisor) : Prop where
  launched : ∀ pid config, s.fuzzerConfigs.get pid = some config →
    ∃ n, s.launchCounts.get config = some n ∧ Launched campaign s config pid n
      ∧ .launched config pid (campaign.sanitizerPrefix config n) ∈ s.history
  unique : ∀ pid pid' config, s.fuzzerConfigs.get pid = some config →
    s.fuzzerConfigs.get pid' = some config → pid = pid'

section Steps

variable {campaign : Campaign} {s s' t : Supervisor}

theorem Agrees.refl (s : Supervisor) : Agrees s s := ⟨rfl, rfl, rfl, List.Subset.refl _⟩

theorem Agrees.trans {u : Supervisor} (h : Agrees s t) (h' : Agrees t u) : Agrees s u :=
  ⟨h'.configs.trans h.configs, h'.prefixes.trans h.prefixes, h'.counts.trans h.counts,
    List.Subset.trans h.history h'.history⟩

theorem agrees_acquire (s : Supervisor) (config : Nat) (attempt : LaunchAttempt) :
    Agrees s (s.acquireConfigLock config attempt).1 := by
  unfold acquireConfigLock
  split
  · exact .refl s
  · split
    · exact ⟨rfl, rfl, rfl, List.Subset.refl _⟩
    · exact .refl s

theorem agrees_giveUp (s : Supervisor) (config : Nat) : Agrees s (giveUp s config) := by
  have hrelease : Agrees s (s.releaseConfigLock config) := by
    unfold releaseConfigLock
    split
    · exact .refl s
    · exact ⟨rfl, rfl, rfl, List.Subset.refl _⟩
  exact ⟨hrelease.configs, hrelease.prefixes, hrelease.counts,
    List.subset_append_left _ _⟩

/-- `run_fuzzer` launches a child, or changes nothing that matters here. -/
theorem runFuzzer_cases (s : Supervisor) (config : Nat) (kind : LaunchKind)
    (attempt : LaunchAttempt) :
    (∃ t, Agrees s t ∧ runFuzzer campaign s config kind attempt = (t, false))
      ∨ ∃ t, Agrees s t ∧ runFuzzer campaign s config kind attempt
        = (launch campaign t config attempt, true) := by
  have hacquire := agrees_acquire s config attempt
  unfold runFuzzer
  split
  · exact .inl ⟨s, .refl s, rfl⟩
  · split
    · exact .inl ⟨s, .refl s, rfl⟩
    · split
      · next heq =>
          rw [heq] at hacquire
          exact .inl ⟨_, hacquire, rfl⟩
      · next heq =>
          rw [heq] at hacquire
          split
          · exact .inl ⟨_, hacquire, rfl⟩
          · split
            · exact .inl ⟨_, hacquire, rfl⟩
            · exact .inr ⟨_, hacquire, rfl⟩

theorem restart_cases (s : Supervisor) (config : Nat) (runtime : Int) (attempt : LaunchAttempt) :
    ∃ t, Agrees s t ∧ (restart campaign s config runtime attempt = t
      ∨ restart campaign s config runtime attempt = launch campaign t config attempt) := by
  rw [restart]
  generalize (if runtime ≥ 60 then 0 else (s.rapidRestartCounts.get config).getD 0) + 1 = count
  have hcounted : Agrees s
      { s with rapidRestartCounts := s.rapidRestartCounts.set config count } :=
    ⟨rfl, rfl, rfl, List.Subset.refl _⟩
  split_ifs
  · rcases @runFuzzer_cases campaign
      { s with rapidRestartCounts := s.rapidRestartCounts.set config count } config .restart attempt
      with ⟨t, ht, hrun⟩ | ⟨t, ht, hrun⟩
    · rw [hrun]
      exact ⟨_, (hcounted.trans ht).trans (agrees_giveUp t config), .inl rfl⟩
    · rw [hrun]
      exact ⟨t, hcounted.trans ht, .inr rfl⟩
  · exact ⟨_, hcounted.trans (agrees_giveUp _ config), .inl rfl⟩

/-- A visit leaves the child alone, or forgets it and perhaps launches
another one. -/
theorem visit_cases {index : Nat} {e : ChildVisit} (h : visit campaign s index e = .ok s') :
    s' = s ∨ ∃ pid config t, s.fuzzerConfigs.get pid = some config
      ∧ Agrees (s.forget index pid) t
      ∧ (s' = t ∨ ∃ attempt, s' = launch campaign t config attempt) := by
  unfold visit at h
  split at h
  · cases h
  · next pid _ =>
      split at h
      · exact .inl (Except.ok.inj h).symm
      · split at h
        · next config _ startedAt hconfig _ _ =>
            obtain ⟨t, ht, heq⟩ := @restart_cases campaign (s.forget index pid) config
              (e.now - startedAt) e.attempt
            rw [← Except.ok.inj h]
            exact .inr ⟨pid, config, t, hconfig, ht, heq.imp_right fun heq => ⟨_, heq⟩⟩
        · cases h

theorem Current.agrees (h : Current campaign s) (ht : Agrees s t) : Current campaign t where
  launched pid config hpid := by
    rw [ht.configs] at hpid
    obtain ⟨n, hn, hlaunched, hmem⟩ := h.launched pid config hpid
    refine ⟨n, ht.counts ▸ hn, ?_, ht.history hmem⟩
    unfold Launched
    rw [ht.configs, ht.prefixes]
    exact hlaunched
  unique pid pid' config := by
    rw [ht.configs]
    exact h.unique pid pid' config

theorem Current.forget (h : Current campaign s) (index pid : Nat) :
    Current campaign (s.forget index pid) := by
  have hget : ∀ {pid' config}, (s.forget index pid).fuzzerConfigs.get pid' = some config →
      pid' ≠ pid ∧ s.fuzzerConfigs.get pid' = some config := by
    intro pid' config hsome
    have herase : (s.forget index pid).fuzzerConfigs.get pid'
      = if pid' = pid then none else s.fuzzerConfigs.get pid' := AssocMap.get_erase _ _ _
    rw [herase] at hsome
    split at hsome
    · cases hsome
    · next hne => exact ⟨hne, hsome⟩
  refine ⟨fun pid' config hpid' => ?_, fun pid₁ pid₂ config h₁ h₂ => ?_⟩
  · obtain ⟨hne, hold⟩ := hget hpid'
    obtain ⟨n, hn, ⟨-, hsanitized⟩, hmem⟩ := h.launched pid' config hold
    exact ⟨n, hn, ⟨hpid', (AssocMap.get_erase _ _ _).trans ((if_neg hne).trans hsanitized)⟩, hmem⟩
  · exact h.unique pid₁ pid₂ config (hget h₁).2 (hget h₂).2

variable (campaign) in
theorem launchCounts_launch (s : Supervisor) (config : Nat) (attempt : LaunchAttempt) :
    ∀ config', (launch campaign s config attempt).launchCounts.get config'
      = if config' = config then some ((s.launchCounts.get config).getD 0 + 1)
        else s.launchCounts.get config' := AssocMap.get_set _ _ _

/-- A configuration without a child is launched. -/
theorem Current.launch (h : Current campaign s) {config : Nat} {attempt : LaunchAttempt}
    (hnone : ∀ pid, s.fuzzerConfigs.get pid ≠ some config) :
    Current campaign (launch campaign s config attempt) := by
  have hconfigs : ∀ pid, (Supervisor.launch campaign s config attempt).fuzzerConfigs.get pid
      = if pid = attempt.pid then some config else s.fuzzerConfigs.get pid := AssocMap.get_set _ _ _
  have hsanitizer : ∀ pid,
      (Supervisor.launch campaign s config attempt).fuzzerSanitizerPrefixes.get pid
        = if pid = attempt.pid then
            some (campaign.sanitizerPrefix config ((s.launchCounts.get config).getD 0 + 1))
          else s.fuzzerSanitizerPrefixes.get pid := AssocMap.get_set _ _ _
  have hcounts := launchCounts_launch campaign s config attempt
  have hhistory : s.history ⊆ (Supervisor.launch campaign s config attempt).history :=
    List.subset_append_left _ _
  refine ⟨fun pid config' hpid => ?_, fun pid pid' config' hpid hpid' => ?_⟩
  · rw [hconfigs] at hpid
    split at hpid
    · next heq =>
        obtain rfl := Option.some.inj hpid
        refine ⟨_, (hcounts _).trans (if_pos rfl),
          ⟨(hconfigs pid).trans (if_pos heq), (hsanitizer pid).trans (if_pos heq)⟩, ?_⟩
        rw [heq]
        exact List.mem_append_right _ (List.mem_singleton_self _)
    · next hne =>
        obtain ⟨n, hn, ⟨-, hsanitized⟩, hmem⟩ := h.launched pid config' hpid
        have hother : config' ≠ config := fun heq => hnone pid (heq ▸ hpid)
        exact ⟨n, (hcounts _).trans ((if_neg hother).trans hn),
          ⟨(hconfigs pid).trans ((if_neg hne).trans hpid),
            (hsanitizer pid).trans ((if_neg hne).trans hsanitized)⟩, hhistory hmem⟩
  · rw [hconfigs] at hpid hpid'
    split at hpid <;> split at hpid'
    · next heq heq' => rw [heq, heq']
    · obtain rfl := Option.some.inj hpid
      exact absurd hpid' (hnone pid')
    · obtain rfl := Option.some.inj hpid'
      exact absurd hpid (hnone pid)
    · exact h.unique pid pid' config' hpid hpid'

theorem current_init (campaign : Campaign) : Current campaign .init where
  launched _ _ hpid := by cases hpid
  unique _ _ _ hpid := by cases hpid

theorem Current.visit {index : Nat} {e : ChildVisit} (h : Current campaign s)
    (hvisit : visit campaign s index e = .ok s') : Current campaign s' := by
  rcases visit_cases hvisit with rfl | ⟨pid, config, t, hconfig, ht, hs'⟩
  · exact h
  · have hforgot := (h.forget index pid).agrees ht
    rcases hs' with rfl | ⟨attempt, rfl⟩
    · exact hforgot
    · refine hforgot.launch fun pid' hpid' => ?_
      rw [ht.configs] at hpid'
      have herase : (s.forget index pid).fuzzerConfigs.get pid'
        = if pid' = pid then none else s.fuzzerConfigs.get pid' := AssocMap.get_erase _ _ _
      rw [herase] at hpid'
      split at hpid'
      · cases hpid'
      · next hne => exact hne (h.unique pid' pid config hpid' hconfig)

/-- The launch of a child is the last one of its configuration. -/
theorem Current.launchCount (h : Current campaign s) {config pid n : Nat}
    (hlaunched : Launched campaign s config pid n) :
    s.launchCounts.get config = some n
      ∧ .launched config pid (campaign.sanitizerPrefix config n) ∈ s.history := by
  obtain ⟨k, hk, ⟨-, hsanitized⟩, hmem⟩ := h.launched pid config hlaunched.1
  have heq := (sanitizerPrefix_injective campaign
    (Option.some.inj (hsanitized.symm.trans hlaunched.2))).2
  exact ⟨heq ▸ hk, heq ▸ hmem⟩

end Steps

/-! ## Runs with the logs -/

/-- What the supervisor and the logs keep. -/
structure Attributed (campaign : Campaign) (s : Supervisor) (logs : ErrorLogs) : Prop where
  current : Current campaign s
  traced : ∀ config n, s.launchCounts.get config = some n →
    Traced campaign s.history config n (logs config)

section Runs

variable {campaign : Campaign} {s s' : Supervisor} {logs : ErrorLogs}

/-- Only the log of one configuration changes. -/
theorem Attributed.update (h : Attributed campaign s logs) {config : Nat} {log : ErrorLog}
    (hlog : ∀ n, s.launchCounts.get config = some n → Traced campaign s.history config n log) :
    Attributed campaign s (Function.update logs config log) where
  current := h.current
  traced config' n hn := by
    by_cases heq : config' = config
    · subst heq
      rw [Function.update_self]
      exact hlog n hn
    · rw [Function.update_of_ne heq]
      exact h.traced config' n hn

theorem Attributed.launch (h : Attributed campaign s logs) (hid : IsLaunchId campaign.campaignId)
    {config : Nat} {attempt : LaunchAttempt} (time : Text)
    (hnone : ∀ pid, s.fuzzerConfigs.get pid ≠ some config)
    (hrun : runFuzzer campaign s config .initial attempt = (s', true)) :
    Attributed campaign s' (Function.update logs config ((logs config).launch campaign config
      ((s'.launchCounts.get config).getD 0) time .initial)) := by
  rcases runFuzzer_cases s config .initial attempt with ⟨t, -, heq⟩ | ⟨t, ht, heq⟩
  · rw [heq] at hrun
    cases hrun
  · rw [heq] at hrun
    obtain rfl := (Prod.mk.inj hrun).1
    have hcurrent : Current campaign (Supervisor.launch campaign t config attempt) :=
      (h.current.agrees ht).launch fun pid => ht.configs ▸ hnone pid
    refine ⟨hcurrent, fun config' n hn => ?_⟩
    by_cases hconfig : config' = config
    · subst hconfig
      rw [Function.update_self, hn]
      exact traced_initial hid time
    · rw [launchCounts_launch, if_neg hconfig, ht.counts] at hn
      rw [Function.update_of_ne hconfig]
      exact (h.traced config' n hn).mono
        (List.Subset.trans ht.history (List.subset_append_left _ _))

theorem Attributed.visit (h : Attributed campaign s logs) (hid : IsLaunchId campaign.campaignId)
    {index : Nat} {e : ChildVisit} {time : Text} (htime : '\n' ∉ time)
    (hvisit : visit campaign s index e = .ok s') :
    Attributed campaign s' (logsAfter campaign s s' time logs) := by
  refine ⟨h.current.visit hvisit, fun config n hn => ?_⟩
  rcases visit_cases hvisit with rfl | ⟨pid, config', t, hconfig, ht, hs'⟩
  · rw [logsAfter, if_pos rfl]
    exact h.traced config n hn
  · have hcounts : t.launchCounts = s.launchCounts := ht.counts
    have hhistory : s.history ⊆ t.history := ht.history
    rcases hs' with rfl | ⟨attempt, rfl⟩
    · rw [logsAfter, if_pos (by rw [hcounts])]
      exact (h.traced config n (hcounts ▸ hn)).mono hhistory
    · have hmore : s.history ⊆ (Supervisor.launch campaign t config' attempt).history :=
        List.Subset.trans hhistory (List.subset_append_left _ _)
      have hcount := launchCounts_launch campaign t config' attempt config
      rw [hcounts] at hcount
      by_cases heq : config = config'
      · subst heq
        obtain ⟨k, hk, -⟩ := h.current.launched pid config hconfig
        have hne : (Supervisor.launch campaign t config attempt).launchCounts.get config
            ≠ s.launchCounts.get config := by
          rw [hcount, if_pos rfl, hk]
          exact fun hsame => Nat.succ_ne_self k (Option.some.inj hsame)
        rw [logsAfter, if_neg hne, hn]
        exact ((h.traced config k hk).mono hmore).restart hid htime n
      · rw [if_neg heq] at hcount
        rw [logsAfter, if_pos hcount]
        exact (h.traced config n (hcount ▸ hn)).mono hmore

theorem Logged.attributed (hid : IsLaunchId campaign.campaignId) (h : Logged campaign s logs) :
    Attributed campaign s logs := by
  induction h with
  | start => exact ⟨current_init campaign, fun _ _ hn => by cases hn⟩
  | launch time _ hnone hrun ih => exact ih.launch hid time hnone hrun
  | visit _ _ htime hvisit ih => exact ih.visit hid htime hvisit
  | output _ hlaunched hhonest ih =>
      obtain ⟨hcount, hmem⟩ := ih.current.launchCount hlaunched
      refine ih.update fun n hn => ?_
      obtain rfl := Option.some.inj (hcount.symm.trans hn)
      exact Traced.append hmem (ih.traced _ _ hn) hhonest
  | mark _ hlaunched ih =>
      obtain ⟨hcount, -⟩ := ih.current.launchCount hlaunched
      refine ih.update fun n hn => ?_
      obtain rfl := Option.some.inj (hcount.symm.trans hn)
      exact (ih.traced _ _ hn).mark hid
  | rotate config _ ih => exact ih.update fun _ _ => traced_empty

/-- The launches at the start, with the logs. -/
theorem Logged.launches {configs : List Nat} (hlaunches : Launches campaign configs s s') :
    ∀ {status : Nat → ConfigStatus} {logs : ErrorLogs}, Inv campaign status s → configs.Nodup →
      (∀ config ∈ configs, status config = .absent) → Logged campaign s logs →
      ∃ logs', Logged campaign s' logs' := by
  induction hlaunches with
  | nil => exact fun _ _ _ hlogged => ⟨_, hlogged⟩
  | @cons config configs s s' s'' attempt hfresh hrun _ ih =>
      intro status logs hinv hnodup habsent hlogged
      obtain ⟨hnot, hnodup⟩ := List.nodup_cons.mp hnodup
      have hstatus := habsent config List.mem_cons_self
      have hnone : ∀ pid, s.fuzzerConfigs.get pid ≠ some config := by
        intro pid hpid
        have hrunning := hinv.config_running pid config hpid
        rw [hstatus] at hrunning
        cases hrunning
      refine ih (hinv.firstLaunch hstatus hfresh hrun) hnodup (fun config' hmem => ?_)
        (.launch [] hlogged hnone hrun)
      rw [Function.update_of_ne (ne_of_mem_of_not_mem hmem hnot)]
      exact habsent config' (List.mem_cons_of_mem _ hmem)

theorem Logged.polls {indices : List Nat} {exit : Option SupervisorExit}
    (hpolls : Polls campaign indices s s' exit) :
    ∀ {logs : ErrorLogs}, Logged campaign s logs → ∃ logs', Logged campaign s' logs' := by
  induction hpolls with
  | remain | noneRemain | fail => exact fun hlogged => ⟨_, hlogged⟩
  | visit _ hvisit _ ih =>
      exact fun hlogged => ih (.visit [] hlogged List.not_mem_nil hvisit)

/-- What the supervisor comes to, it comes to with the logs. -/
theorem logged_of_loopHead {selected : List Nat} (hselected : campaign.Selects selected)
    (h : LoopHead campaign selected s) : ∃ logs, Logged campaign s logs := by
  induction h with
  | start hlaunches =>
      exact Logged.launches hlaunches (inv_init campaign) (selects_nodup hselected)
        (fun _ _ => rfl) (@Logged.start campaign fun _ => .empty)
  | poll _ hpolls ih =>
      obtain ⟨logs, hlogged⟩ := ih
      exact hlogged.polls hpolls

/-- The launch that is read off a log is the launch of the process that
the exit line names. -/
theorem exit_line_traced (hid : IsLaunchId campaign.campaignId) (h : Logged campaign s logs)
    {config : Nat} (hconfig : (s.launchCounts.get config).isSome) {pre post : List Text}
    {number launchId : Text}
    (hlines : linesOf (logs config).text = pre ++ exitLine number :: post)
    (hrecent : MostRecentLaunch pre launchId) :
    ∃ pid n, number = Text.ofNat pid ∧ launchId = campaign.launchId n
      ∧ .launched config pid (campaign.sanitizerPrefix config n) ∈ s.history := by
  obtain ⟨n, hn⟩ := Option.isSome_iff_exists.mp hconfig
  have htraced := (h.attributed hid).traced config n hn
  have hgoal : ∀ k, launchId = campaign.launchId k →
      OfLaunch campaign s.history config k (exitLine number) →
      ∃ pid n, number = Text.ofNat pid ∧ launchId = campaign.launchId n
        ∧ .launched config pid (campaign.sanitizerPrefix config n) ∈ s.history := by
    intro k hk hof
    obtain ⟨pid, hpid, hmem⟩ := hof number rfl
    exact ⟨pid, k, hpid, hk, hmem⟩
  rw [ErrorLog.linesOf_text] at hlines
  split at hlines
  · rw [List.append_nil] at hlines
    obtain ⟨k, hk, hof⟩ := htraced.lines pre _ post hlines launchId hrecent ⟨number, rfl⟩
    exact hgoal k hk hof
  · obtain rfl | ⟨post, last, rfl⟩ := List.eq_nil_or_concat post
    · -- The exit line is the one that the child is still writing.
      obtain ⟨hpre, heq⟩ := List.append_inj' hlines rfl
      have hnow := htraced.now launchId (hpre ▸ hrecent)
      exact hgoal n hnow ((List.head_eq_of_cons_eq heq) ▸ htraced.exit)
    · rw [List.concat_eq_append, ← List.cons_append, ← List.append_assoc] at hlines
      obtain ⟨k, hk, hof⟩ := htraced.lines pre _ post (List.append_inj' hlines rfl).1 launchId
        hrecent ⟨number, rfl⟩
      exact hgoal k hk hof

end Runs

def demoLog : ErrorLog :=
  (ErrorLog.empty.launch demoCampaign 1 1 [] .initial).append
    (exitLine (Text.ofNat 100) ++ ['\n'])

theorem logged_demo : Logged demoCampaign demoStarted (Function.update
    (Function.update (fun _ => .empty) 1 (ErrorLog.empty.launch demoCampaign 1 1 [] .initial))
    1 demoLog) := by
  have hrun : runFuzzer demoCampaign .init 1 .initial (demoAttempt 10 100)
    = (demoStarted, true) := rfl
  have hstart : Logged demoCampaign .init fun _ => .empty := .start
  have hlaunched : Launched demoCampaign demoStarted 1 100 1 := ⟨rfl, rfl⟩
  refine (hstart.launch [] (fun _ hpid => by cases hpid) hrun).output hlaunched
    fun before after heq => ?_
  rcases List.append_eq_append_iff.mp heq with ⟨m, rfl, hnewline⟩ | ⟨m, hline, -⟩
  · cases m with
    | nil =>
        rw [List.append_nil, ErrorLog.tail_append (by decide)]
        exact honest_exitLine (List.append_nil _)
    | cons c m =>
        obtain ⟨rfl, hrest⟩ := List.cons.inj hnewline
        obtain rfl : m = [] := (List.append_eq_nil_iff.mp hrest.symm).1
        rw [(ErrorLog.append_line (by decide) _).2]
        exact honest_nil
  · have hnot : '\n' ∉ before := fun hmem => by
      have hmem' : '\n' ∈ exitLine (Text.ofNat 100) := hline ▸ List.mem_append_left m hmem
      revert hmem'
      decide
    rw [ErrorLog.tail_append hnot]
    exact honest_exitLine hline.symm

theorem exit_line_traced_demo : ∃ pid n, "100".toList = Text.ofNat pid
    ∧ "c-1".toList = demoCampaign.launchId n
    ∧ .launched 1 pid (demoCampaign.sanitizerPrefix 1 n) ∈ demoStarted.history :=
  have hid : IsLaunchId "c-1".toList := ⟨by decide, List.all_eq_true.mp rfl⟩
  have hrecent : MostRecentLaunch ([] ++ [launchLine "c-1".toList]) "c-1".toList :=
    (mostRecentLaunch_append_launchLine hid).mpr rfl
  have hlines : linesOf demoLog.text
    = ([] ++ [launchLine "c-1".toList]) ++ exitLine (Text.ofNat 100) :: [] := rfl
  exit_line_traced ⟨by decide, List.all_eq_true.mp rfl⟩ logged_demo rfl hlines hrecent

end Supervisor

end LighttpdFuzz

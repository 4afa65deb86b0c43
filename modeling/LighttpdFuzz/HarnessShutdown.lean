import LighttpdFuzz.AsanProcess

/-!
# The harness-shutdown rule

`asanProcess.sh` must hide exactly the reports that stopping a child
provokes. The rule it implements is stated here over the log files
alone (`IsHarnessShutdown`, `Excused`), without the state machine, the
key strings or the in-band marker that the script uses to pass the
confirmed identities from `awk` to the shell.

The state machine is settled by what it knows after any prefix of an
error log (`scanner_invariant`): the most recent launch, and whether the
unbroken run after a confirmed exit line is still going on. The marker
is the weak point: a finding that happens to begin with the marker's
text is taken for one of the script's own lines and dropped. It cannot
confirm a shutdown (`readMarker_identity`), so everything else stands,
and `shutdown_rule_iff` says that this is the only way a finding is
lost.
-/

namespace LighttpdFuzz

open LineTools

/-! ## The rule -/

def IsNumber (t : Line) : Prop := t ≠ [] ∧ ∀ c ∈ t, c.isDigit = true

def IsLaunchId (t : Line) : Prop := t ≠ [] ∧ ∀ c ∈ t, isLaunchIdChar c = true

def launchLine (launchId : Line) : Line :=
  launchPrefix ++ (launchId ++ launchSuffix)

def exitLine (pid : Line) : Line :=
  exitPrefix ++ (pid ++ exitSuffix)

/-- The name of a sanitizer log that carries a launch id. -/
def launchLogName (configId launchId pid : Line) : Line :=
  asanPrefix ++ (configId ++ (logInfix ++ (launchId ++ (dot ++ pid))))

def errorLogName (configId : Line) : Line := errorPrefix ++ configId

/-- `name`, with the lines `report`, is a report of the exit hook: its
name, its sidecar and its text say so. -/
structure StopCandidate (dir : LogDirectory) (file : Line × List Line)
    (configId launchId pid : Line) : Prop where
  config : IsNumber configId
  launch : IsLaunchId launchId
  number : IsNumber pid
  name : file.1 = launchLogName configId launchId pid
  stopped : ∃ record, (supervisorRecord file.1, record) ∈ dir.entries
    ∧ ∃ status ∈ stopStatuses, status ∈ record
  checkFailed : ∃ line ∈ file.2, checkFailedText <:+: line
  exitCallback : ∃ line ∈ file.2, exitCallbackText <:+: line
  noError : ∀ line ∈ file.2, ¬ asanErrorText <:+: line
  noSignal : ∀ line ∈ file.2, ¬ deadlySignalText <:+: line

/-- The most recent launch announced in `pre` is `launchId`. -/
def MostRecentLaunch (pre : List Line) (launchId : Line) : Prop :=
  IsLaunchId launchId ∧ ∃ before after, pre = before ++ launchLine launchId :: after
    ∧ ∀ line ∈ after, ∀ other, IsLaunchId other → line ≠ launchLine other

/-- `line`, after the lines `pre` of the error log of `configId`, is the
exit line of a child whose report is a candidate. -/
def ConfirmedExit (dir : LogDirectory) (configId : Line) (pre : List Line) (line : Line)
    (launchId pid : Line) : Prop :=
  line = exitLine pid ∧ MostRecentLaunch pre launchId
    ∧ ∃ file ∈ dir.entries, StopCandidate dir file configId launchId pid

/-- A report is a harness shutdown. -/
def IsHarnessShutdown (dir : LogDirectory) (file : Line × List Line) : Prop :=
  ∃ configId launchId pid, StopCandidate dir file configId launchId pid
    ∧ ∃ lines, (errorLogName configId, lines) ∈ dir.entries
      ∧ ∃ pre post, lines = pre ++ exitLine pid :: post ∧ MostRecentLaunch pre launchId

/-- The lines `pre` end in a confirmed exit line and the unbroken run of
signal lines after it. -/
def InExitTail (dir : LogDirectory) (configId : Line) (pre : List Line) : Prop :=
  ∃ before exit count launchId pid,
    pre = before ++ exit :: List.replicate count deadlySignalText
      ∧ ConfirmedExit dir configId before exit launchId pid

/-- `line`, after the lines `pre` of the error log of `configId`, may be
left out: it is a confirmed exit line, or a signal line in the unbroken
run right after one. -/
def Excused (dir : LogDirectory) (configId : Line) (pre : List Line) (line : Line) : Prop :=
  (∃ launchId pid, ConfirmedExit dir configId pre line launchId pid)
    ∨ line = deadlySignalText ∧ InExitTail dir configId pre

/-! ## Names and keys -/

theorem filled_launchPattern_iff {fs : List Line} {t : Line} :
    Filled launchPattern fs t ↔ ∃ launchId, IsLaunchId launchId ∧ fs = [launchId]
      ∧ t = launchLine launchId := by
  simp [launchPattern, launchLine, IsLaunchId, and_assoc]

theorem filled_exitPattern_iff {fs : List Line} {t : Line} :
    Filled exitPattern fs t ↔ ∃ pid, IsNumber pid ∧ fs = [pid] ∧ t = exitLine pid := by
  simp [exitPattern, exitLine, IsNumber, and_assoc]

theorem filled_errorLogPattern_iff {fs : List Line} {t : Line} :
    Filled errorLogPattern fs t ↔ ∃ configId, IsNumber configId ∧ fs = [configId]
      ∧ t = errorLogName configId := by
  simp [errorLogPattern, errorLogName, IsNumber, and_assoc]

theorem filled_asanLogPattern_iff {fs : List Line} {t : Line} :
    Filled asanLogPattern fs t ↔ ∃ configId pid, IsNumber configId ∧ IsNumber pid
      ∧ fs = [configId, pid] ∧ t = asanPrefix ++ (configId ++ (logInfix ++ pid)) := by
  simp [asanLogPattern, IsNumber, and_assoc]

theorem filled_asanLaunchLogPattern_iff {fs : List Line} {t : Line} :
    Filled asanLaunchLogPattern fs t ↔ ∃ configId launchId pid, IsNumber configId
      ∧ IsLaunchId launchId ∧ IsNumber pid ∧ fs = [configId, launchId, pid]
      ∧ t = launchLogName configId launchId pid := by
  simp [asanLaunchLogPattern, launchLogName, IsLaunchId, IsNumber, and_assoc]

theorem capture_launchPattern {fs : List Line} {line : Line} :
    capture launchPattern line = some fs ↔ ∃ launchId, IsLaunchId launchId
      ∧ fs = [launchId] ∧ line = launchLine launchId := by
  have hdelimited : Delimited launchPattern := ⟨rfl, trivial⟩
  rw [capture_eq_some_iff hdelimited, filled_launchPattern_iff]

theorem capture_exitPattern {fs : List Line} {line : Line} :
    capture exitPattern line = some fs ↔ ∃ pid, IsNumber pid ∧ fs = [pid]
      ∧ line = exitLine pid := by
  have hdelimited : Delimited exitPattern := ⟨rfl, trivial⟩
  rw [capture_eq_some_iff hdelimited, filled_exitPattern_iff]

theorem capture_errorLogPattern {fs : List Line} {name : Line} :
    capture errorLogPattern name = some fs ↔ ∃ configId, IsNumber configId
      ∧ fs = [configId] ∧ name = errorLogName configId := by
  have hdelimited : Delimited errorLogPattern := ⟨trivial, trivial⟩
  rw [capture_eq_some_iff hdelimited, filled_errorLogPattern_iff]

theorem IsNumber.notMem {t : Line} (h : IsNumber t) {c : Char} (hc : c.isDigit = false) :
    c ∉ t := fun hin => by
  rw [h.2 c hin] at hc
  cases hc

theorem IsLaunchId.notMem {t : Line} (h : IsLaunchId t) {c : Char}
    (hc : isLaunchIdChar c = false) : c ∉ t := fun hin => by
  rw [h.2 c hin] at hc
  cases hc

/-- A name with a launch id is not one without. -/
theorem not_filled_asanLogPattern {configId launchId pid : Line} (hc : IsNumber configId)
    {fs : List Line} : ¬ Filled asanLogPattern fs (launchLogName configId launchId pid) := by
  rw [filled_asanLogPattern_iff]
  rintro ⟨configId', pid', hc', hp', -, hname⟩
  have hrest := List.append_cancel_left hname
  have hdot : ∀ {t : Line}, IsNumber t → '.' ∉ t := fun h => h.notMem rfl
  obtain ⟨-, hafter⟩ := split_unique (hdot hc) (hdot hc') hrest
  have hin : '.' ∈ pid' := by
    rw [← @List.append_cancel_left _ "log.".toList _ _ hafter]
    exact List.mem_append_right launchId List.mem_cons_self
  exact hdot hp' hin

theorem readAsanName_eq_some_iff {name configId launchId pid : Line} :
    readAsanName name = some ⟨configId, some launchId, pid⟩ ↔ IsNumber configId
      ∧ IsLaunchId launchId ∧ IsNumber pid ∧ name = launchLogName configId launchId pid := by
  have hplain : Delimited asanLogPattern := ⟨rfl, trivial, trivial⟩
  have hlaunch : Delimited asanLaunchLogPattern := ⟨rfl, rfl, trivial, trivial⟩
  constructor
  · intro h
    unfold readAsanName at h
    split at h
    · cases h
    · split at h
      · next fields hcapture =>
          cases h
          rw [capture_eq_some_iff hlaunch, filled_asanLaunchLogPattern_iff] at hcapture
          obtain ⟨_, _, _, hc, hl, hp, hfields, rfl⟩ := hcapture
          cases hfields
          exact ⟨hc, hl, hp, rfl⟩
      · cases h
  · rintro ⟨hc, hl, hp, rfl⟩
    have hfilled : capture asanLaunchLogPattern (launchLogName configId launchId pid)
        = some [configId, launchId, pid] := by
      rw [capture_eq_some_iff hlaunch, filled_asanLaunchLogPattern_iff]
      exact ⟨configId, launchId, pid, hc, hl, hp, rfl, rfl⟩
    rw [readAsanName, hfilled]
    split
    · next hcapture =>
        exact absurd ((capture_eq_some_iff hplain).mp hcapture)
          (not_filled_asanLogPattern hc)
    · rfl

theorem errorConfigId_eq_iff {name configId : Line} (hne : configId ≠ []) :
    errorConfigId name = configId ↔ IsNumber configId ∧ name = errorLogName configId := by
  constructor
  · intro h
    unfold errorConfigId at h
    split at h
    · next hcapture =>
        obtain ⟨_, hc, hfields, rfl⟩ := capture_errorLogPattern.mp hcapture
        cases hfields
        subst h
        exact ⟨hc, rfl⟩
    · exact absurd h.symm hne
  · rintro ⟨hc, rfl⟩
    rw [errorConfigId, capture_errorLogPattern.mpr ⟨configId, hc, rfl, rfl⟩]

theorem errorConfigId_cases (name : Line) :
    errorConfigId name = [] ∨ IsNumber (errorConfigId name) := by
  by_cases hne : errorConfigId name = []
  · exact .inl hne
  · exact .inr ((errorConfigId_eq_iff hne).mp rfl).1

theorem shutdownIdentity_inj {c l p c' l' p' : Line} (hc : IsNumber c) (hl : IsLaunchId l)
    (hc' : IsNumber c') (hl' : IsLaunchId l')
    (h : shutdownIdentity c l p = shutdownIdentity c' l' p') : c = c' ∧ l = l' ∧ p = p' := by
  obtain ⟨hconfig, hrest⟩ := split_unique (hc.notMem rfl) (hc'.notMem rfl) h
  exact ⟨hconfig, split_unique (hl.notMem rfl) (hl'.notMem rfl) hrest⟩

/-! ## Candidates -/

@[simp] theorem hasText_eq_true_iff {text : Line} {lines : List Line} :
    hasText text lines = true ↔ ∃ line ∈ lines, text <:+: line := by
  simp [hasText]

@[simp] theorem hasText_eq_false_iff {text : Line} {lines : List Line} :
    hasText text lines = false ↔ ∀ line ∈ lines, ¬ text <:+: line := by
  simp [hasText]

/-- The script's test of a log is the rule's. -/
theorem candidateIdentity_eq_some_iff {dir : LogDirectory} {file : Line × List Line}
    {identity : Line} :
    candidateIdentity dir file = some identity ↔ ∃ configId launchId pid,
      StopCandidate dir file configId launchId pid
        ∧ identity = shutdownIdentity configId launchId pid := by
  constructor
  · intro h
    unfold candidateIdentity at h
    split at h
    · next configId launchId pid hname =>
        obtain ⟨hc, hl, hp, hname⟩ := readAsanName_eq_some_iff.mp hname
        split at h
        · next record hrecord =>
            split at h
            · next htest =>
                cases h
                simp only [Bool.and_eq_true, Bool.not_eq_true', Bool.or_eq_false_iff,
                  List.any_eq_true, List.contains_iff_mem, hasText_eq_true_iff,
                  hasText_eq_false_iff] at htest
                obtain ⟨⟨⟨⟨status, hin, hstatus⟩, hcheck⟩, hcallback⟩, herror, hsignal⟩ := htest
                exact ⟨configId, launchId, pid,
                  { config := hc
                    launch := hl
                    number := hp
                    name := hname
                    stopped := ⟨record, AssocMap.get_eq_some_iff.mp hrecord, status,
                      hstatus, hin⟩
                    checkFailed := hcheck
                    exitCallback := hcallback
                    noError := herror
                    noSignal := hsignal }, rfl⟩
            · cases h
        · cases h
    · cases h
  · rintro ⟨configId, launchId, pid, h, rfl⟩
    obtain ⟨record, hrecord, status, hstatus, hin⟩ := h.stopped
    have hname := readAsanName_eq_some_iff.mpr ⟨h.config, h.launch, h.number, h.name⟩
    have htest : (record.any stopStatuses.contains && hasText checkFailedText file.2
        && hasText exitCallbackText file.2
        && !(hasText asanErrorText file.2 || hasText deadlySignalText file.2)) = true := by
      simp only [Bool.and_eq_true, Bool.not_eq_true', Bool.or_eq_false_iff,
        List.any_eq_true, List.contains_iff_mem, hasText_eq_true_iff, hasText_eq_false_iff]
      exact ⟨⟨⟨⟨status, hin, hstatus⟩, h.checkFailed⟩, h.exitCallback⟩, h.noError, h.noSignal⟩
    simp only [candidateIdentity, hname, AssocMap.get_eq_some_iff.mpr hrecord, htest,
      if_true]

theorem StopCandidate.mem_asanLogs {dir : LogDirectory} {file : Line × List Line}
    {c l p : Line} (h : StopCandidate dir file c l p) (hfile : file ∈ dir.entries) :
    file ∈ asanLogs dir := by
  have hname := readAsanName_eq_some_iff.mpr ⟨h.config, h.launch, h.number, h.name⟩
  rw [asanLogs, List.mem_filter, hname, h.name, launchLogName]
  exact ⟨hfile, by simp⟩

theorem mem_harnessShutdownCandidates_iff {dir : LogDirectory} {key : Line} :
    key ∈ harnessShutdownCandidates dir ↔ ∃ c l p, (∃ file ∈ dir.entries,
      StopCandidate dir file c l p) ∧ key = shutdownIdentity c l p := by
  rw [harnessShutdownCandidates, List.mem_filterMap]
  constructor
  · rintro ⟨file, hfile, hkey⟩
    obtain ⟨c, l, p, hcandidate, rfl⟩ := candidateIdentity_eq_some_iff.mp hkey
    exact ⟨c, l, p, ⟨file, (List.mem_filter.mp hfile).1, hcandidate⟩, rfl⟩
  · rintro ⟨c, l, p, ⟨file, hfile, hcandidate⟩, rfl⟩
    exact ⟨file, hcandidate.mem_asanLogs hfile,
      candidateIdentity_eq_some_iff.mpr ⟨c, l, p, hcandidate, rfl⟩⟩

theorem splitLaunchPid_join {l p : Line} (hl : IsLaunchId l) (hp : IsNumber p) :
    splitLaunchPid (l ++ ':' :: p) = (l, p) := by
  have hkeep : ∀ {t : Line}, ':' ∉ t → ∀ c ∈ t, (c != ':') = true := by
    intro t ht c hc
    rw [bne_iff_ne]
    rintro rfl
    exact ht hc
  have hl' := hkeep (hl.notMem rfl)
  have hp' := hkeep (hp.notMem rfl)
  have hpid : p.takeWhile (· != ':') = p := List.takeWhile_eq_self_iff.mpr hp'
  simp [splitLaunchPid, List.takeWhile_append_of_pos hl', List.dropWhile_append_of_pos hl', hpid]

/-- The keys handed to `awk` for a config are the candidates of that
config: no other config's key has the prefix. -/
theorem isShutdown_iff {dir : LogDirectory} {configId launchId pid : Line}
    (hconfig : configId = [] ∨ IsNumber configId) :
    isShutdown dir configId launchId pid = true ↔ ∃ file ∈ dir.entries,
      StopCandidate dir file configId launchId pid := by
  obtain rfl | hconfig := hconfig
  · simp only [isShutdown, shutdownLaunchPids, if_true, List.map_nil, List.contains_nil,
      Bool.false_eq_true, false_iff, not_exists, not_and]
    exact fun file _ h => h.config.1 rfl
  have hdrop : ∀ l p, (shutdownIdentity configId l p).drop (configId.length + 1)
      = l ++ ':' :: p := by
    simp [shutdownIdentity, List.drop_append]
  rw [isShutdown, shutdownLaunchPids, if_neg hconfig.1, List.contains_iff_mem, List.map_map,
    List.mem_map]
  constructor
  · rintro ⟨key, hkey, hsplit⟩
    rw [List.mem_filter, mem_harnessShutdownCandidates_iff] at hkey
    obtain ⟨⟨c, l, p, ⟨file, hfile, hcandidate⟩, rfl⟩, hstarts⟩ := hkey
    obtain ⟨rest, hrest⟩ := of_decide_eq_true hstarts
    rw [List.append_assoc, List.singleton_append] at hrest
    obtain ⟨rfl, rfl⟩ := split_unique (hconfig.notMem rfl) (hcandidate.config.notMem rfl) hrest
    rw [Function.comp, hdrop, splitLaunchPid_join hcandidate.launch hcandidate.number] at hsplit
    cases hsplit
    exact ⟨file, hfile, hcandidate⟩
  · rintro ⟨file, hfile, hcandidate⟩
    refine ⟨shutdownIdentity configId launchId pid, ?_, ?_⟩
    · rw [List.mem_filter, mem_harnessShutdownCandidates_iff]
      refine ⟨⟨_, _, _, ⟨file, hfile, hcandidate⟩, rfl⟩, decide_eq_true ?_⟩
      exact ⟨launchId ++ ':' :: pid, by simp [shutdownIdentity]⟩
    · rw [Function.comp, hdrop, splitLaunchPid_join hcandidate.launch hcandidate.number]

end LighttpdFuzz

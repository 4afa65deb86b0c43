import LighttpdFuzz.CampaignStop
import LighttpdFuzz.ShutdownRule

/-!
# What a stopped campaign leaves

`cleanup` writes a record beside the sanitizer log of a child and removes
PID files. Both depend on what happens meanwhile: a child may have ended
by itself before the signal, its log may be missing, and a PID file may
have another number in it.

A record is written for exactly the children that are `Stopped` in the
end: the signal of the supervisor reached the child itself, the child
ended with the status of that signal, and its log is there
(`records_of_cleanup`). A PID file goes exactly if it names its child
(`pidFiles_of_cleanup`). The other side reads the records: a log is taken
for a harness shutdown exactly if it is the exit hook's report of a child
that the supervisor stopped, and the error log has the exit line of that
launch (`harness_shutdown_iff_stopped`).

The paths do not get into each other's way, which their last characters
show.
-/

namespace LighttpdFuzz

open ProcessGroups Script

/-! ## Paths -/

theorem getLast?_append_ofNat (t : Text) (n : Nat) :
    ∃ d : Char, d.isDigit = true ∧ (t ++ Text.ofNat n).getLast? = some d := by
  have hne : Text.ofNat n ≠ [] := Nat.toDigits_ne_nil
  rw [Text.getLast?_append_word hne, List.getLast?_eq_some_getLast hne]
  exact ⟨_, Text.isDigit_ofNat (List.getLast_mem hne), rfl⟩

/-- Two paths with different last characters. -/
theorem ne_of_getLast? {t u : Text} {a b : Char} (ht : t.getLast? = some a)
    (hu : u.getLast? = some b) (hab : a ≠ b) : t ≠ u := by
  rintro rfl
  exact hab (Option.some.inj (ht.symm.trans hu))

theorem ne_of_digit {t u : Text} {b : Char}
    (ht : ∃ d : Char, d.isDigit = true ∧ t.getLast? = some d)
    (hu : u.getLast? = some b) (hb : b.isDigit = false) : t ≠ u := by
  obtain ⟨d, hd, ht⟩ := ht
  refine ne_of_getLast? ht hu ?_
  rintro rfl
  rw [hd] at hb
  cases hb

theorem getLast?_record (path : Text) :
    (path ++ supervisorStopSuffix).getLast? = some 'p' := by
  unfold supervisorStopSuffix
  rw [Text.getLast?_append_word (by simp)]
  rfl

theorem getLast?_pidFile (campaign : Campaign) (config : Nat) :
    (campaign.pidFile config).getLast? = some 'd' := Text.getLast?_append_word (by simp)

theorem getLast?_readyFile (campaign : Campaign) (shell : Nat) :
    (campaign.readyFile shell).getLast? = some 'y' := Text.getLast?_append_word (by simp)

theorem getLast?_errorLog (campaign : Campaign) (config : Nat) :
    ∃ d : Char, d.isDigit = true ∧ (campaign.errorLog config).getLast? = some d :=
  getLast?_append_ofNat _ config

theorem getLast?_sanitizerLog (c : Shutdown) (pid : Nat) :
    ∃ d : Char, d.isDigit = true ∧ (c.sanitizerLog pid).getLast? = some d := by
  rw [Shutdown.sanitizerLog, List.append_cons]
  exact getLast?_append_ofNat _ pid

theorem pidFile_injective (campaign : Campaign) : Function.Injective campaign.pidFile := by
  intro config config' h
  have hdot : ∀ n, campaign.pidFile n = (campaign.directory ++ "/run/run_".toList)
      ++ (Text.ofNat n ++ '/' :: "run.pid".toList) := by
    intro n
    simp [Campaign.pidFile]
  rw [hdot, hdot] at h
  obtain ⟨hc, -⟩ := Text.digits_append_inj (by rfl) (fun _ => Text.isDigit_ofNat)
    (fun _ => Text.isDigit_ofNat) (List.append_cancel_left h)
  exact Text.ofNat_injective hc

/-! ## The tables -/

namespace Supervisor

/-- The files of a child are named after its configuration. -/
structure Named (campaign : Campaign) (s : Supervisor) : Prop where
  pidFiles : ∀ pid file, s.serverPidFiles.get pid = some file →
    ∃ config, s.fuzzerConfigs.get pid = some config ∧ file = campaign.pidFile config
  prefixes : ∀ pid path, s.fuzzerSanitizerPrefixes.get pid = some path →
    ∃ config n, s.fuzzerConfigs.get pid = some config ∧ path = campaign.sanitizerPrefix config n

section Named

variable {campaign : Campaign} {s s' : Supervisor}

theorem Named.congr (h : Named campaign s) (hconfigs : s'.fuzzerConfigs = s.fuzzerConfigs)
    (hfiles : s'.serverPidFiles = s.serverPidFiles)
    (hprefixes : s'.fuzzerSanitizerPrefixes = s.fuzzerSanitizerPrefixes) :
    Named campaign s' := by
  refine ⟨?_, ?_⟩
  · rw [hconfigs, hfiles]
    exact h.pidFiles
  · rw [hconfigs, hprefixes]
    exact h.prefixes

theorem Named.launch (h : Named campaign s) (config : Nat) (attempt : LaunchAttempt) :
    Named campaign (launch campaign s config attempt) := by
  have hconfigs : (Supervisor.launch campaign s config attempt).fuzzerConfigs
    = s.fuzzerConfigs.set attempt.pid config := rfl
  have hfiles : (Supervisor.launch campaign s config attempt).serverPidFiles
    = s.serverPidFiles.set attempt.pid (campaign.pidFile config) := rfl
  have hprefixes : (Supervisor.launch campaign s config attempt).fuzzerSanitizerPrefixes
    = s.fuzzerSanitizerPrefixes.set attempt.pid
        (campaign.sanitizerPrefix config ((s.launchCounts.get config).getD 0 + 1)) := rfl
  refine ⟨fun pid file hfile => ?_, fun pid path hpath => ?_⟩
  · rw [hfiles, AssocMap.get_set] at hfile
    rw [hconfigs, AssocMap.get_set]
    split at hfile
    · next heq => exact ⟨config, if_pos heq, (Option.some.inj hfile).symm⟩
    · next hne =>
        rw [if_neg hne]
        exact h.pidFiles pid file hfile
  · rw [hprefixes, AssocMap.get_set] at hpath
    rw [hconfigs, AssocMap.get_set]
    split at hpath
    · next heq => exact ⟨config, _, if_pos heq, (Option.some.inj hpath).symm⟩
    · next hne =>
        rw [if_neg hne]
        exact h.prefixes pid path hpath

theorem Named.forget (h : Named campaign s) (index pid : Nat) :
    Named campaign (s.forget index pid) := by
  have hget : ∀ {ν : Type} {m : AssocMap Nat ν} {pid' : Nat} {v : ν},
      (m.erase pid).get pid' = some v → pid' ≠ pid ∧ m.get pid' = some v := by
    intro ν m pid' v hsome
    rw [AssocMap.get_erase] at hsome
    split at hsome
    · cases hsome
    · next hne => exact ⟨hne, hsome⟩
  refine ⟨fun pid' file hfile => ?_, fun pid' path hpath => ?_⟩
  · obtain ⟨hne, hfile⟩ := hget hfile
    obtain ⟨config, hconfig, heq⟩ := h.pidFiles pid' file hfile
    exact ⟨config, (AssocMap.get_erase _ _ _).trans ((if_neg hne).trans hconfig), heq⟩
  · obtain ⟨hne, hpath⟩ := hget hpath
    obtain ⟨config, n, hconfig, heq⟩ := h.prefixes pid' path hpath
    exact ⟨config, n, (AssocMap.get_erase _ _ _).trans ((if_neg hne).trans hconfig), heq⟩

theorem Named.acquire (h : Named campaign s) (config : Nat) (attempt : LaunchAttempt) :
    Named campaign (s.acquireConfigLock config attempt).1 := by
  unfold acquireConfigLock
  split
  · exact h
  · split
    · exact h.congr rfl rfl rfl
    · exact h

theorem Named.runFuzzer (h : Named campaign s) (config : Nat) (kind : LaunchKind)
    (attempt : LaunchAttempt) : Named campaign (runFuzzer campaign s config kind attempt).1 := by
  have hacquire := h.acquire config attempt
  unfold Supervisor.runFuzzer
  split
  · exact h
  · split
    · exact h
    · split
      · next heq =>
          rw [heq] at hacquire
          exact hacquire
      · next heq =>
          rw [heq] at hacquire
          split
          · exact hacquire
          · split
            · exact hacquire
            · exact hacquire.launch config attempt

theorem Named.giveUp (h : Named campaign s) (config : Nat) :
    Named campaign (giveUp s config) := by
  have hrelease : Named campaign (s.releaseConfigLock config) := by
    unfold releaseConfigLock
    split
    · exact h
    · exact h.congr rfl rfl rfl
  exact hrelease.congr rfl rfl rfl

theorem Named.restart (h : Named campaign s) (config : Nat) (runtime : Int)
    (attempt : LaunchAttempt) : Named campaign (restart campaign s config runtime attempt) := by
  rw [Supervisor.restart]
  generalize (if runtime ≥ 60 then 0 else (s.rapidRestartCounts.get config).getD 0) + 1 = count
  have hcounted : Named campaign
      { s with rapidRestartCounts := s.rapidRestartCounts.set config count } := h.congr rfl rfl rfl
  have hrun := hcounted.runFuzzer config .restart attempt
  split_ifs
  · split
    · next heq =>
        rw [heq] at hrun
        exact hrun
    · next heq =>
        rw [heq] at hrun
        exact hrun.giveUp config
  · exact hcounted.giveUp config

theorem Named.visit (h : Named campaign s) {index : Nat} {e : ChildVisit}
    (hvisit : visit campaign s index e = .ok s') : Named campaign s' := by
  unfold Supervisor.visit at hvisit
  split at hvisit
  · cases hvisit
  · next pid _ =>
      split at hvisit
      · rw [← Except.ok.inj hvisit]
        exact h
      · split at hvisit
        · rw [← Except.ok.inj hvisit]
          exact (h.forget index pid).restart _ _ _
        · cases hvisit

theorem Named.launches {configs : List Nat} (hlaunches : Launches campaign configs s s') :
    Named campaign s → Named campaign s' := by
  induction hlaunches with
  | nil => exact id
  | @cons config _ _ _ _ attempt _ hrun _ ih =>
      intro h
      have hnext := h.runFuzzer config .initial attempt
      rw [hrun] at hnext
      exact ih hnext

theorem Named.polls {indices : List Nat} {exit : Option SupervisorExit}
    (hpolls : Polls campaign indices s s' exit) : Named campaign s → Named campaign s' := by
  induction hpolls with
  | remain _ => exact id
  | noneRemain _ => exact id
  | visit _ hvisit _ ih => exact fun h => ih (h.visit hvisit)
  | fail _ => exact id

theorem LoopHead.named {selected : List Nat} (h : LoopHead campaign selected s) :
    Named campaign s := by
  induction h with
  | start hlaunches => exact .launches hlaunches ⟨nofun, nofun⟩
  | poll _ hpolls ih => exact .polls hpolls ih

end Named

end Supervisor

/-! ## What the actions do to the files -/

/-- What holds when the trap runs while the supervisor sleeps. -/
structure Shutdown.Reached (c : Shutdown) (selected : List Nat) : Prop where
  selects : c.campaign.Selects selected
  loopHead : Supervisor.LoopHead c.campaign selected c.supervisor
  readyFile : c.backendReadyFile = []
    ∨ ∃ shell, c.backendReadyFile = c.campaign.readyFile shell

/-- The files an action may change. -/
inductive Touches (c : Shutdown) : CleanupKind → Text → Prop
  | errorLog (config : Nat) : Touches c .stop (c.campaign.errorLog config)
  | readyFile : Touches c .plain c.backendReadyFile
  | record (pid : Nat) : Touches c .record (c.stopRecord pid)
  | pidFile {file : Nat × Text} : file ∈ c.supervisor.serverPidFiles.entries →
      Touches c .removePidFile file.2

section Files

variable {c : Shutdown} {selected : List Nat} {kind : CleanupKind} {f : Stopping → Stopping}

theorem files_signalFuzzer (signal : StopSignal) (pid : Nat) (s : Stopping) :
    (s.signalFuzzer signal pid).extra.files = s.extra.files := by
  unfold Stopping.signalFuzzer
  split <;> rfl

theorem files_collect (pid : Nat) (s : Stopping) :
    (s.collect pid).extra.files = s.extra.files := by
  unfold Stopping.collect
  split <;> rfl

/-- An action changes no other file. -/
theorem CleanupAction.files (h : CleanupAction c kind f) (s : Stopping) {path : Text}
    (hpath : ¬ Touches c kind path) : (f s).extra.files path = s.extra.files path := by
  cases h with
  | mark _ _ => exact if_neg fun (heq : path = _) => hpath (heq ▸ .errorLog _)
  | signal _ _ => rw [files_signalFuzzer]
  | ask _ => rw [Processes.extra_send]
  | clearRunning => rfl
  | noteAlive => rw [Processes.extra_noteAlive]
  | force _ => rw [Processes.extra_send]
  | collect => rw [files_collect]
  | record _ => exact if_neg fun (heq : path = _) => hpath (heq ▸ .record _)
  | reap => rfl
  | removeReady => exact if_neg fun (heq : path = _) => hpath (heq ▸ .readyFile)
  | removePidFile hfile => exact if_neg fun (heq : path = _) => hpath (heq ▸ .pidFile hfile)

theorem Shutdown.Reached.ready_last (h : c.Reached selected) {a : Char}
    (hlast : c.backendReadyFile.getLast? = some a) : a = 'y' := by
  rcases h.readyFile with heq | ⟨shell, heq⟩
  · rw [heq] at hlast
    cases hlast
  · rw [heq, getLast?_readyFile] at hlast
    exact (Option.some.inj hlast).symm

theorem Shutdown.Reached.pidFile (h : c.Reached selected) {file : Nat × Text}
    (hfile : file ∈ c.supervisor.serverPidFiles.entries) :
    ∃ config, c.supervisor.fuzzerConfigs.get file.1 = some config
      ∧ file.2 = c.campaign.pidFile config :=
  h.loopHead.named.pidFiles file.1 file.2 (AssocMap.get_eq_some_iff.mpr hfile)

theorem Shutdown.Reached.pidFile_last (h : c.Reached selected) {file : Nat × Text}
    (hfile : file ∈ c.supervisor.serverPidFiles.entries) : file.2.getLast? = some 'd' := by
  obtain ⟨config, -, heq⟩ := h.pidFile hfile
  rw [heq]
  exact getLast?_pidFile c.campaign config

/-- Two children have two PID files. -/
theorem Shutdown.Reached.pidFile_unique (h : c.Reached selected) {file file' : Nat × Text}
    (hfile : file ∈ c.supervisor.serverPidFiles.entries)
    (hfile' : file' ∈ c.supervisor.serverPidFiles.entries) (heq : file.2 = file'.2) :
    file = file' := by
  obtain ⟨config, hconfig, hname⟩ := h.pidFile hfile
  obtain ⟨config', hconfig', hname'⟩ := h.pidFile hfile'
  obtain rfl : config = config' := pidFile_injective c.campaign (by rw [← hname, heq, hname'])
  obtain ⟨status, hinv, -⟩ := h.loopHead.inv h.selects
  exact Prod.ext (hinv.config_unique _ _ config hconfig hconfig') heq

theorem not_touches_record (h : c.Reached selected) (hkind : kind ≠ .record) (path : Text) :
    ¬ Touches c kind (path ++ supervisorStopSuffix) := by
  intro htouches
  have hlast := getLast?_record path
  generalize path ++ supervisorStopSuffix = record at htouches hlast
  cases htouches with
  | errorLog config => exact ne_of_digit (getLast?_errorLog c.campaign config) hlast rfl rfl
  | readyFile => cases h.ready_last hlast
  | record => exact hkind rfl
  | pidFile hfile => exact ne_of_getLast? (h.pidFile_last hfile) hlast (by simp) rfl

theorem not_touches_sanitizerLog (h : c.Reached selected) (hkind : kind ≠ .stop) (pid : Nat) :
    ¬ Touches c kind (c.sanitizerLog pid) := by
  intro htouches
  have hdigit := getLast?_sanitizerLog c pid
  generalize c.sanitizerLog pid = log at htouches hdigit
  cases htouches with
  | errorLog => exact hkind rfl
  | readyFile =>
      obtain ⟨d, hd, hlast⟩ := hdigit
      cases h.ready_last hlast
      cases hd
  | record pid' => exact ne_of_digit hdigit (getLast?_record _) rfl rfl
  | pidFile hfile => exact ne_of_digit hdigit (h.pidFile_last hfile) rfl rfl

theorem not_touches_pidFile (h : c.Reached selected) (hkind : kind ≠ .removePidFile)
    {file : Nat × Text} (hfile : file ∈ c.supervisor.serverPidFiles.entries) :
    ¬ Touches c kind file.2 := by
  intro htouches
  have hlast := h.pidFile_last hfile
  generalize file.2 = path at htouches hlast
  cases htouches with
  | errorLog config => exact ne_of_digit (getLast?_errorLog c.campaign config) hlast rfl rfl
  | readyFile => cases h.ready_last hlast
  | record pid => exact ne_of_getLast? (getLast?_record _) hlast (by simp) rfl
  | pidFile => exact hkind rfl

theorem stopRecord_injective (c : Shutdown) : Function.Injective c.stopRecord := by
  intro pid pid' h
  have hlog : c.sanitizerLog pid = c.sanitizerLog pid' := List.append_cancel_right h
  have hdigits : ∀ pid, '.' ∉ (Text.ofNat pid).reverse := fun pid hmem => by
    have hdigit := Text.isDigit_ofNat (List.mem_reverse.mp hmem)
    cases hdigit
  have hreverse : ∀ pid, (c.sanitizerLog pid).reverse
      = (Text.ofNat pid).reverse ++ '.' :: (c.sanitizerPrefix pid).reverse := by
    intro pid
    simp [Shutdown.sanitizerLog]
  have heq := congrArg List.reverse hlog
  rw [hreverse, hreverse] at heq
  obtain ⟨hpid, -⟩ := LineTools.split_unique (hdigits pid) (hdigits pid') heq
  exact Text.ofNat_injective (List.reverse_injective hpid)

end Files

/-! ## The children that were stopped -/

/-- The supervisor stopped the child: its signal reached the child, the
child ended as the signal makes it end, and it has left a log. -/
structure Stopped (c : Shutdown) (s : Stopping) (pid : Nat) : Prop where
  signalled : ((c.stopSignal pid).signal, .process pid) ∈ s.signals
  ended : s.EndedWith pid (c.stopSignal pid).status
  logged : (s.extra.files (c.sanitizerLog pid)).isSome = true

/-- `supervisor_stop_expected` has the children that their signals have
reached. -/
def Noted (c : Shutdown) (s : Stopping) : Prop :=
  ∀ pid status, s.extra.stopExpected.get pid = some status ↔
    status = (c.stopSignal pid).status
      ∧ ((c.stopSignal pid).signal, .process pid) ∈ s.signals

section Signals

variable {c : Shutdown} {kind : CleanupKind} {f : Stopping → Stopping}

theorem noted_signalFuzzer {s : Stopping} (h : Noted c s) (pid : Nat) :
    Noted c (s.signalFuzzer (c.stopSignal pid) pid) := by
  unfold Stopping.signalFuzzer
  split
  · next hpresent =>
      intro pid' status
      have hsignals : (s.send (c.stopSignal pid).signal (.process pid)).signals
          = s.signals ++ [((c.stopSignal pid).signal, .process pid)] := by
        unfold Processes.send
        rw [if_pos (show s.reaches (.process pid) = true from hpresent)]
      simp only [hsignals, AssocMap.get_set, List.mem_append, List.mem_singleton]
      by_cases heq : pid' = pid
      · subst heq
        simp [eq_comm]
      · rw [if_neg heq, h pid' status]
        simp [heq]
  · exact h

theorem stopExpected_collect (pid : Nat) (s : Stopping) :
    (s.collect pid).extra.stopExpected = s.extra.stopExpected := by
  unfold Stopping.collect
  split <;> rfl

/-- Only the first loop sends signals to single processes and notes it. -/
theorem CleanupAction.expected (h : CleanupAction c kind f) (hkind : kind ≠ .stop)
    (s : Stopping) : (f s).extra.stopExpected = s.extra.stopExpected
      ∧ ∀ signal pid, (signal, .process pid) ∈ (f s).signals
        ↔ (signal, .process pid) ∈ s.signals := by
  cases h with
  | mark _ _ => exact absurd rfl hkind
  | signal _ _ => exact absurd rfl hkind
  | ask _ => exact ⟨by rw [Processes.extra_send], fun _ _ => Processes.mem_send_group⟩
  | clearRunning => exact ⟨rfl, fun _ _ => Iff.rfl⟩
  | noteAlive =>
      exact ⟨by rw [Processes.extra_noteAlive], fun _ _ => by rw [Processes.signals_noteAlive]⟩
  | force _ => exact ⟨by rw [Processes.extra_send], fun _ _ => Processes.mem_send_group⟩
  | collect => exact ⟨stopExpected_collect _ s, fun _ _ => by rw [signals_collect]⟩
  | record _ => exact ⟨rfl, fun _ _ => Iff.rfl⟩
  | reap => exact ⟨rfl, fun _ _ => Iff.rfl⟩
  | removeReady => exact ⟨rfl, fun _ _ => Iff.rfl⟩
  | removePidFile _ => exact ⟨rfl, fun _ _ => Iff.rfl⟩

theorem CleanupAction.noted (h : CleanupAction c kind f) {s : Stopping} (hs : Noted c s) :
    Noted c (f s) := by
  by_cases hkind : kind = .stop
  · subst hkind
    cases h with
    | mark _ _ => exact hs
    | signal _ _ => exact noted_signalFuzzer hs _
  · obtain ⟨hexpected, hsignals⟩ := h.expected hkind s
    intro pid status
    rw [hexpected, hsignals]
    exact hs pid status

theorem stable_noted : Stable (Meanwhile c) (Noted c) := by
  intro s s' hrely hs pid status
  rw [hrely.stopExpected, hrely.quiet.signals]
  exact hs pid status

theorem phase_signalFuzzer (signal : StopSignal) (pid : Nat) (s : Stopping) :
    (s.signalFuzzer signal pid).phase = s.phase := by
  unfold Stopping.signalFuzzer Processes.send
  split
  · split <;> rfl
  · rfl

theorem CleanupAction.phase (h : CleanupAction c kind f) (s : Stopping) (pid : Nat) :
    PhaseStep (s.phase pid) ((f s).phase pid) := by
  cases h with
  | mark _ _ => exact .same
  | signal _ _ => rw [phase_signalFuzzer]; exact .same
  | ask _ => rw [Processes.phase_send]; exact .same
  | clearRunning => exact .same
  | noteAlive => rw [Processes.phase_noteAlive]; exact .same
  | force _ => rw [Processes.phase_send]; exact .same
  | @collect pid' =>
      unfold Stopping.collect
      split
      · exact .same
      · exact phaseStep_reap pid' pid s
  | record _ => exact .same
  | @reap pid' => exact phaseStep_reap pid' pid s
  | removeReady => exact .same
  | removePidFile _ => exact .same

end Signals

/-- After the first loop, whether a child that has ended was stopped does
not change any more. -/
structure Later (c : Shutdown) (s s' : Stopping) : Prop where
  phase : ∀ pid, PhaseStep (s.phase pid) (s'.phase pid)
  process : ∀ signal pid, (signal, .process pid) ∈ s'.signals ↔ (signal, .process pid) ∈ s.signals
  logs : ∀ pid, s.hasEnded pid = true →
    (s'.extra.files (c.sanitizerLog pid)).isSome = (s.extra.files (c.sanitizerLog pid)).isSome

section Later

variable {c : Shutdown} {selected : List Nat} {s s' : Stopping}

theorem Meanwhile.later (h : Meanwhile c s s') : Later c s s' where
  phase := h.quiet.phase
  process signal pid := by rw [h.quiet.signals]
  logs := h.logs

theorem CleanupAction.later {kind : CleanupKind} {f : Stopping → Stopping}
    (h : CleanupAction c kind f) (hc : c.Reached selected) (hkind : kind ≠ .stop) :
    Later c s (f s) where
  phase := h.phase s
  process := (h.expected hkind s).2
  logs pid _ := by rw [h.files s (not_touches_sanitizerLog hc hkind pid)]

theorem Later.endedWith_iff (h : Later c s s') {pid status : Nat} (hended : s.hasEnded pid = true) :
    s'.EndedWith pid status ↔ s.EndedWith pid status := by
  refine ⟨fun hafter => ?_, (h.phase pid).ended⟩
  obtain ⟨status', hbefore⟩ := Processes.hasEnded_iff.mp hended
  rw [hafter.unique ((h.phase pid).ended hbefore)]
  exact hbefore

theorem Later.hasEnded (h : Later c s s') {pid : Nat} (hended : s.hasEnded pid = true) :
    s'.hasEnded pid = true := by
  obtain ⟨status, hbefore⟩ := Processes.hasEnded_iff.mp hended
  exact Processes.hasEnded_iff.mpr ⟨status, (h.phase pid).ended hbefore⟩

theorem Later.stopped_iff (h : Later c s s') {pid : Nat} (hended : s.hasEnded pid = true) :
    Stopped c s' pid ↔ Stopped c s pid := by
  constructor
  · rintro ⟨hsignal, hafter, hlog⟩
    refine ⟨(h.process _ _).mp hsignal, (h.endedWith_iff hended).mp hafter, ?_⟩
    rw [← h.logs pid hended]
    exact hlog
  · rintro ⟨hsignal, hbefore, hlog⟩
    refine ⟨(h.process _ _).mpr hsignal, (h.endedWith_iff hended).mpr hbefore, ?_⟩
    rw [h.logs pid hended]
    exact hlog

end Later

/-! ## The records -/

/-- The text of the record of a child. -/
def Shutdown.recordText (c : Shutdown) (pid : Nat) : Text :=
  Shutdown.statusLine (c.stopSignal pid).status ++ ['\n']

/-- The children of `done` have ended, and those that were stopped have
their records; apart from these the records are those of `files`. -/
structure Recorded (c : Shutdown) (files : Text → Option Text) (done : List Nat)
    (s : Stopping) : Prop where
  noted : Noted c s
  ended : ∀ pid ∈ done, s.hasEnded pid = true
  written : ∀ pid ∈ done, Stopped c s pid →
    s.extra.files (c.stopRecord pid) = some (c.recordText pid)
  kept : ∀ path, (∀ pid ∈ done, Stopped c s pid →
      path ++ supervisorStopSuffix ≠ c.stopRecord pid) →
    s.extra.files (path ++ supervisorStopSuffix)
      = files (path ++ supervisorStopSuffix)

section Records

variable {c : Shutdown} {selected : List Nat} {files : Text → Option Text} {done : List Nat}
  {kinds : List CleanupKind} {d : Script Stopping}

theorem Recorded.later {s s' : Stopping} (h : Recorded c files done s) (hlater : Later c s s')
    (hnoted : Noted c s') (hrecords : ∀ path, s'.extra.files (path ++ supervisorStopSuffix)
      = s.extra.files (path ++ supervisorStopSuffix)) : Recorded c files done s' where
  noted := hnoted
  ended pid hpid := hlater.hasEnded (h.ended pid hpid)
  written pid hpid hstopped := by
    rw [Shutdown.stopRecord, hrecords]
    exact h.written pid hpid ((hlater.stopped_iff (h.ended pid hpid)).mp hstopped)
  kept path hpath := by
    rw [hrecords]
    exact h.kept path fun pid hpid hstopped =>
      hpath pid hpid ((hlater.stopped_iff (h.ended pid hpid)).mpr hstopped)

theorem stable_recorded : Stable (Meanwhile c) (Recorded c files done) :=
  fun s s' hrely h => h.later hrely.later (stable_noted s s' hrely h.noted) hrely.records

/-- Before anything is recorded. -/
theorem recorded_nil_iff {s : Stopping} : Recorded c files [] s ↔ Noted c s
    ∧ ∀ path, s.extra.files (path ++ supervisorStopSuffix)
      = files (path ++ supervisorStopSuffix) := by
  refine ⟨fun h => ⟨h.noted, fun path => h.kept path (by simp)⟩, fun ⟨hnoted, hfiles⟩ => ?_⟩
  exact ⟨hnoted, by simp, by simp, fun path _ => hfiles path⟩

theorem keeps_unrecorded (hc : c.Reached selected) (h : HasKinds c kinds d)
    (hrecord : .record ∉ kinds) :
    Triple (Meanwhile c) (Recorded c files []) d (Recorded c files []) := by
  refine .keeps stable_recorded fun f hf s hs => ?_
  obtain ⟨kind, hkind, haction⟩ := h f hf
  obtain ⟨hnoted, hfiles⟩ := recorded_nil_iff.mp hs
  refine recorded_nil_iff.mpr ⟨haction.noted hnoted, fun path => ?_⟩
  rw [haction.files s (not_touches_record hc (fun heq => hrecord (heq ▸ hkind)) path), hfiles]

theorem keeps_recorded (hc : c.Reached selected) (h : HasKinds c kinds d) (hstop : .stop ∉ kinds)
    (hrecord : .record ∉ kinds) :
    Triple (Meanwhile c) (Recorded c files done) d (Recorded c files done) := by
  refine .keeps stable_recorded fun f hf s hs => ?_
  obtain ⟨kind, hkind, haction⟩ := h f hf
  refine hs.later (haction.later hc fun heq => hstop (heq ▸ hkind)) (haction.noted hs.noted)
    fun path => ?_
  exact haction.files s (not_touches_record hc (fun heq => hrecord (heq ▸ hkind)) path)

/-- One more child has ended, and it was not stopped. -/
theorem Recorded.skip {s : Stopping} {pid : Nat} (h : Recorded c files done s)
    (hended : s.hasEnded pid = true) (hstopped : ¬ Stopped c s pid) :
    Recorded c files (done ++ [pid]) s where
  noted := h.noted
  ended := List.forall_mem_append.mpr ⟨h.ended, List.forall_mem_singleton.mpr hended⟩
  written := List.forall_mem_append.mpr ⟨h.written,
    List.forall_mem_singleton.mpr fun h => absurd h hstopped⟩
  kept path hpath := h.kept path fun pid' hpid' => hpath pid' (List.mem_append_left _ hpid')

/-- One more child has ended, it was stopped, and that is recorded. -/
theorem Recorded.record (hc : c.Reached selected) {s : Stopping} {pid : Nat}
    (hpid : pid ∈ c.childPids) (h : Recorded c files done s) (hstopped : Stopped c s pid)
    (hstatus : s.extra.waitStatus = (c.stopSignal pid).status) :
    Recorded c files (done ++ [pid]) (c.writeRecord pid s) := by
  have haction : CleanupAction c .record (c.writeRecord pid) := .record hpid
  have hlater : Later c s (c.writeRecord pid s) := haction.later hc (by simp)
  have hended : ∀ pid' ∈ done ++ [pid], s.hasEnded pid' = true :=
    List.forall_mem_append.mpr ⟨h.ended, List.forall_mem_singleton.mpr
      (Processes.hasEnded_iff.mpr ⟨_, hstopped.ended⟩)⟩
  have hself : (c.writeRecord pid s).extra.files (c.stopRecord pid) = some (c.recordText pid) := by
    rw [Shutdown.recordText, ← hstatus]
    exact if_pos rfl
  have hother : ∀ path, path ≠ c.stopRecord pid →
      (c.writeRecord pid s).extra.files path = s.extra.files path := fun path hne => if_neg hne
  refine ⟨haction.noted h.noted, fun pid' hpid' => hlater.hasEnded (hended pid' hpid'),
    fun pid' hpid' hstopped' => ?_, fun path hpath => ?_⟩
  · by_cases heq : pid' = pid
    · rw [heq, hself]
    · have hdone : pid' ∈ done := by simpa [heq] using hpid'
      rw [hother _ ((stopRecord_injective c).ne heq)]
      exact h.written pid' hdone ((hlater.stopped_iff (h.ended pid' hdone)).mp hstopped')
  · have hnot := hpath pid (by simp) ((hlater.stopped_iff (hended pid (by simp))).mpr hstopped)
    rw [hother _ hnot]
    exact h.kept path fun pid' hpid' hstopped' => hpath pid' (List.mem_append_left _ hpid')
      ((hlater.stopped_iff (h.ended pid' hpid')).mpr hstopped')

/-- The child has been waited for. -/
def WaitedFor (c : Shutdown) (files : Text → Option Text) (done : List Nat) (pid : Nat)
    (s : Stopping) : Prop :=
  Recorded c files done s ∧ s.EndedWith pid s.extra.waitStatus

theorem stable_waitedFor (pid : Nat) : Stable (Meanwhile c) (WaitedFor c files done pid) := by
  rintro s s' hrely ⟨hrecorded, hended⟩
  refine ⟨stable_recorded s s' hrely hrecorded, ?_⟩
  rw [hrely.waitStatus]
  exact (hrely.quiet.phase pid).ended hended

theorem WaitedFor.stopped_iff {pid : Nat} {s : Stopping} (h : WaitedFor c files done pid s) :
    Stopped c s pid ↔ s.extra.stopExpected.get pid = some s.extra.waitStatus
      ∧ (s.extra.files (c.sanitizerLog pid)).isSome := by
  rw [h.1.noted]
  constructor
  · intro hstopped
    exact ⟨⟨h.2.unique hstopped.ended, hstopped.signalled⟩, hstopped.logged⟩
  · rintro ⟨⟨hstatus, hsignal⟩, hlog⟩
    exact ⟨hsignal, hstatus ▸ h.2, hlog⟩

theorem waitedFor_collect (hc : c.Reached selected) {pid : Nat} {s : Stopping}
    (h : Recorded c files done s) (hended : s.hasEnded pid = true) :
    WaitedFor c files done pid (s.collect pid) := by
  have haction : CleanupAction c .plain (Stopping.collect pid) := .collect
  have hlater := haction.later hc (by simp) (s := s)
  refine ⟨h.later hlater (haction.noted h.noted) fun path => ?_, ?_⟩
  · exact haction.files s (not_touches_record hc (by simp) path)
  · obtain ⟨status, hstatus⟩ := Processes.hasEnded_iff.mp hended
    have hwait : (s.collect pid).extra.waitStatus = status := by
      obtain ⟨reaped, hphase⟩ := hstatus
      unfold Stopping.collect
      rw [hphase]
    rw [hwait]
    exact (hlater.phase pid).ended hstatus

/-- One turn of the loop that waits for the children. -/
theorem waitAndRecord_spec (hc : c.Reached selected) {pid : Nat} (hpid : pid ∈ c.childPids) :
    Triple (Meanwhile c) (Recorded c files done) (c.waitAndRecord pid)
      (Recorded c files (done ++ [pid])) := by
  have hrecorded : ∀ done, Stable (Meanwhile c) (Recorded c files done) :=
    fun done => stable_recorded
  have hended : Stable (Meanwhile c) fun s => Recorded c files done s ∧ s.hasEnded pid = true :=
    fun s s' hrely hs => ⟨hrecorded done s s' hrely hs.1, hrely.later.hasEnded hs.2⟩
  have hcollected : Stable (Meanwhile c) (WaitedFor c files done pid) := stable_waitedFor pid
  have hiff : ∀ s s', Meanwhile c s s' → WaitedFor c files done pid s →
      (Stopped c s' pid ↔ Stopped c s pid) := fun s s' hrely hs =>
    hrely.later.stopped_iff (Processes.hasEnded_iff.mpr ⟨_, hs.2⟩)
  have hyes : Stable (Meanwhile c) fun s => WaitedFor c files done pid s ∧ Stopped c s pid :=
    fun s s' hrely hs => ⟨hcollected s s' hrely hs.1, (hiff s s' hrely hs.1).mpr hs.2⟩
  have hno : Stable (Meanwhile c) fun s => WaitedFor c files done pid s ∧ ¬ Stopped c s pid :=
    fun s s' hrely hs => ⟨hcollected s s' hrely hs.1, fun h => hs.2 ((hiff s s' hrely hs.1).mp h)⟩
  refine .seq (hrecorded done) (hrecorded _)
    (.await (hrecorded done) hended fun s hs htest => ⟨hs, htest⟩) ?_
  refine .seq hended (hrecorded _)
    (.act hended hcollected fun s hs => waitedFor_collect hc hs.1 hs.2) ?_
  have hwrite : Triple (Meanwhile c) (fun s => WaitedFor c files done pid s ∧ Stopped c s pid)
      (act (c.writeRecord pid)) (Recorded c files (done ++ [pid])) :=
    .act hyes (hrecorded _) fun s hs => hs.1.1.record hc hpid hs.2 (hs.1.2.unique hs.2.ended)
  have hskip : Triple (Meanwhile c) (fun s => WaitedFor c files done pid s ∧ ¬ Stopped c s pid)
      skip (Recorded c files (done ++ [pid])) :=
    .weaken (.skip hno) (fun s hs => hs) fun s hs =>
      hs.1.1.skip (Processes.hasEnded_iff.mpr ⟨_, hs.1.2⟩) hs.2
  refine .ite hcollected (hrecorded _) (fun s hs htest => ⟨hs, ?_⟩) (fun s hs htest => ⟨hs, ?_⟩)
    hwrite hskip
  · exact hs.stopped_iff.mpr (of_decide_eq_true htest)
  · exact fun hstopped => of_decide_eq_false htest (hs.stopped_iff.mp hstopped)

theorem stopChildren_records (hc : c.Reached selected) :
    Triple (Meanwhile c) (Recorded c files []) c.stopChildren (Recorded c files c.childPids) := by
  unfold Shutdown.stopChildren
  split
  · next hnil =>
      rw [hnil]
      exact .skip stable_recorded
  · have hpids : ∀ pid ∈ c.childPids, pid ∈ c.childPids ++ c.backendPids :=
      fun pid hpid => List.mem_append_left _ hpid
    refine .seq stable_recorded stable_recorded
      (keeps_unrecorded hc (hasKinds_endGroups hpids) (by simp)) ?_
    refine @Triple.forEach _ _ _ _ (Recorded c files) (fun done => stable_recorded) _ []
      fun before pid after heq => waitAndRecord_spec hc ?_
    rw [heq]
    exact List.mem_append_right _ List.mem_cons_self

theorem cleanup_records (hc : c.Reached selected) :
    Triple (Meanwhile c) (Recorded c files []) c.cleanup (Recorded c files c.childPids) := by
  have hstable : ∀ done, Stable (Meanwhile c) (Recorded c files done) :=
    fun done => stable_recorded
  refine .seq (hstable _) (hstable _) (keeps_unrecorded hc hasKinds_askAll (by simp)) ?_
  refine .seq (hstable _) (hstable _) (stopChildren_records hc) ?_
  refine .seq (hstable _) (hstable _)
    (keeps_recorded hc hasKinds_askBackends (by simp) (by simp)) ?_
  refine .seq (hstable _) (hstable _)
    (keeps_recorded hc hasKinds_stopBackend (by simp) (by simp)) ?_
  exact keeps_recorded hc hasKinds_removeFiles (by simp) (by simp)

end Records

/-- When a campaign has been stopped, the children that its signals ended
have records, and no other record has been written or removed. -/
theorem records_of_cleanup {c : Shutdown} {selected : List Nat} (hc : c.Reached selected)
    {s t : Stopping} (hsignals : s.signals = []) (hexpected : s.extra.stopExpected = .empty)
    (h : Exec (Meanwhile c) c.cleanup s t) :
    (∀ pid ∈ c.childPids, Stopped c t pid →
      t.extra.files (c.stopRecord pid) = some (c.recordText pid))
    ∧ ∀ path, (∀ pid ∈ c.childPids, Stopped c t pid →
        path ++ supervisorStopSuffix ≠ c.stopRecord pid) →
      t.extra.files (path ++ supervisorStopSuffix)
        = s.extra.files (path ++ supervisorStopSuffix) := by
  have hnoted : Noted c s := by
    intro pid status
    rw [hexpected, hsignals]
    simp
  have hrecorded := cleanup_records hc s t (recorded_nil_iff.mpr ⟨hnoted, fun path => rfl⟩) h
  exact ⟨hrecorded.written, hrecorded.kept⟩

/-! ## The PID files -/

/-- What `cleanup` leaves of a PID file. -/
def leftOf (files : Text → Option Text) (file : Nat × Text) : Option Text :=
  if (files file.2).any fun content => firstLine content = Text.ofNat file.1 then none
  else files file.2

section PidFiles

variable {c : Shutdown} {selected : List Nat} {files : Text → Option Text}
  {kinds : List CleanupKind} {d : Script Stopping}

theorem stable_pidFiles : Stable (Meanwhile c) fun s : Stopping =>
    ∀ file ∈ c.supervisor.serverPidFiles.entries, s.extra.files file.2 = files file.2 := by
  intro s s' hrely hs file hfile
  rw [hrely.pidFiles file hfile]
  exact hs file hfile

theorem keeps_pidFiles (hc : c.Reached selected) (h : HasKinds c kinds d)
    (hremove : .removePidFile ∉ kinds) :
    Triple (Meanwhile c)
      (fun s => ∀ file ∈ c.supervisor.serverPidFiles.entries, s.extra.files file.2 = files file.2) d
      fun s => ∀ file ∈ c.supervisor.serverPidFiles.entries,
        s.extra.files file.2 = files file.2 := by
  refine .keeps stable_pidFiles fun f hf s hs file hfile => ?_
  obtain ⟨kind, hkind, haction⟩ := h f hf
  rw [haction.files s (not_touches_pidFile hc (fun heq => hremove (heq ▸ hkind)) hfile)]
  exact hs file hfile

/-- The file of a child is as it was or has gone the way it should. -/
def Settling (files : Text → Option Text) (file : Nat × Text) (s : Stopping) : Prop :=
  s.extra.files file.2 = files file.2 ∨ s.extra.files file.2 = leftOf files file

/-- The test of the script settles the file. -/
theorem Settling.test {file : Nat × Text} {s : Stopping} (h : Settling files file s) :
    (if (s.extra.files file.2).any fun content => firstLine content = Text.ofNat file.1
      then none else s.extra.files file.2) = leftOf files file := by
  rcases h with h | h
  · rw [h, leftOf]
  · rw [h]
    unfold leftOf
    by_cases hgoes :
        (files file.2).any (fun content => firstLine content = Text.ofNat file.1) = true
    · simp only [if_pos hgoes, Option.any_none, Bool.false_eq_true, if_false]
    · simp only [if_neg hgoes]

theorem stable_settling : Stable (Meanwhile c) fun s : Stopping =>
    ∀ file ∈ c.supervisor.serverPidFiles.entries, Settling files file s := by
  intro s s' hrely hs file hfile
  unfold Settling
  rw [hrely.pidFiles file hfile]
  exact hs file hfile

theorem stable_leftOf {file : Nat × Text} (hfile : file ∈ c.supervisor.serverPidFiles.entries) :
    Stable (Meanwhile c) fun s : Stopping => s.extra.files file.2 = leftOf files file := by
  intro s s' hrely hs
  rw [hrely.pidFiles file hfile]
  exact hs

theorem remove_of_ne {path path' : Text} (hne : path' ≠ path) (s : Stopping) :
    (s.remove path).extra.files path' = s.extra.files path' := if_neg hne

theorem removePidFile_spec (hc : c.Reached selected) {file : Nat × Text}
    (hfile : file ∈ c.supervisor.serverPidFiles.entries) :
    Triple (Meanwhile c)
      (fun s => ∀ file ∈ c.supervisor.serverPidFiles.entries, Settling files file s)
      (Shutdown.removePidFile file)
      fun s => (∀ file ∈ c.supervisor.serverPidFiles.entries, Settling files file s)
        ∧ s.extra.files file.2 = leftOf files file := by
  have hsettling : Stable (Meanwhile c) fun s : Stopping =>
      ∀ file ∈ c.supervisor.serverPidFiles.entries, Settling files file s := stable_settling
  have hleft : Stable (Meanwhile c) fun s : Stopping =>
      (∀ file ∈ c.supervisor.serverPidFiles.entries, Settling files file s)
        ∧ s.extra.files file.2 = leftOf files file := hsettling.and (stable_leftOf hfile)
  -- a file that is to go is left as nothing
  have hgone : Stable (Meanwhile c) fun s : Stopping =>
      (∀ file ∈ c.supervisor.serverPidFiles.entries, Settling files file s)
        ∧ leftOf files file = none := fun s s' hrely hs => ⟨hsettling s s' hrely hs.1, hs.2⟩
  refine .ite hsettling hleft (fun s hs htest => ⟨hs, ?_⟩) (fun s hs htest => ⟨hs, ?_⟩)
    (.act hgone hleft fun s hs => ⟨fun file' hfile' => ?_, ?_⟩) (.skip hleft)
  · by_cases heq : file'.2 = file.2
    · obtain rfl := hc.pidFile_unique hfile' hfile heq
      exact .inr ((if_pos rfl).trans hs.2.symm)
    · unfold Settling
      rw [remove_of_ne heq]
      exact hs.1 file' hfile'
  · exact (if_pos rfl).trans hs.2.symm
  · rw [← (hs file hfile).test, if_pos htest]
  · rw [← (hs file hfile).test, if_neg (by rw [htest]; simp)]

theorem removeFiles_spec (hc : c.Reached selected) :
    Triple (Meanwhile c)
      (fun s => ∀ file ∈ c.supervisor.serverPidFiles.entries, s.extra.files file.2 = files file.2)
      c.removeFiles
      fun s => ∀ file ∈ c.supervisor.serverPidFiles.entries,
        s.extra.files file.2 = leftOf files file := by
  have hready : HasKinds c [.plain] (if c.backendReadyFile = [] then skip
      else act (Stopping.remove c.backendReadyFile)) := by
    split
    · exact hasKinds_skip
    · exact hasKinds_act .removeReady (by simp)
  have hstable : Stable (Meanwhile c) fun s : Stopping =>
      ∀ file ∈ c.supervisor.serverPidFiles.entries, s.extra.files file.2 = leftOf files file :=
    fun s s' hrely hs file hfile => stable_leftOf hfile s s' hrely (hs file hfile)
  refine .seq stable_pidFiles hstable (keeps_pidFiles hc hready (by simp)) ?_
  refine .weaken (.each stable_settling (fun file hfile => stable_leftOf hfile)
    (fun file hfile => removePidFile_spec hc hfile) fun file hfile file' hfile' => ?_)
    (fun s hs file hfile => .inl (hs file hfile)) (fun s hs => hs.2)
  by_cases heq : file = file'
  · rw [heq]
    exact (removePidFile_spec hc hfile').weaken (fun s hs => hs.1) fun s hs => hs.2
  · refine .weaken (.keeps (stable_leftOf hfile) fun f hf s hs => ?_) (fun s hs => hs.2)
      fun s hs => hs
    rcases hf with rfl | hf
    · rw [remove_of_ne fun hpath => heq (hc.pidFile_unique hfile hfile' hpath)]
      exact hs
    · cases hf

theorem cleanup_pidFiles (hc : c.Reached selected) :
    Triple (Meanwhile c)
      (fun s => ∀ file ∈ c.supervisor.serverPidFiles.entries, s.extra.files file.2 = files file.2)
      c.cleanup
      fun s => ∀ file ∈ c.supervisor.serverPidFiles.entries,
        s.extra.files file.2 = leftOf files file := by
  have hstable : Stable (Meanwhile c) fun s : Stopping =>
      ∀ file ∈ c.supervisor.serverPidFiles.entries, s.extra.files file.2 = leftOf files file :=
    fun s s' hrely hs file hfile => stable_leftOf hfile s s' hrely (hs file hfile)
  refine .seq stable_pidFiles hstable (keeps_pidFiles hc hasKinds_askAll (by simp)) ?_
  refine .seq stable_pidFiles hstable (keeps_pidFiles hc hasKinds_stopChildren (by simp)) ?_
  refine .seq stable_pidFiles hstable (keeps_pidFiles hc hasKinds_askBackends (by simp)) ?_
  refine .seq stable_pidFiles hstable (keeps_pidFiles hc hasKinds_stopBackend (by simp)) ?_
  exact removeFiles_spec hc

end PidFiles

/-- Stopping a campaign removes a PID file exactly if its child stands in
it. -/
theorem pidFiles_of_cleanup {c : Shutdown} {selected : List Nat} (hc : c.Reached selected)
    {s t : Stopping} (h : Exec (Meanwhile c) c.cleanup s t) {pid : Nat} {path : Text}
    (hfile : c.supervisor.serverPidFiles.get pid = some path) :
    (∃ config ∈ selected, path = c.campaign.pidFile config)
    ∧ (t.extra.files path = none
      ↔ ∀ content, s.extra.files path = some content → firstLine content = Text.ofNat pid)
    ∧ ∀ content, t.extra.files path = some content → s.extra.files path = some content := by
  have hentry := AssocMap.get_eq_some_iff.mp hfile
  have hleft := cleanup_pidFiles hc s t (fun _ _ => rfl) h (pid, path) hentry
  have hleft : t.extra.files path
      = if (s.extra.files path).any fun content => firstLine content = Text.ofNat pid then none
        else s.extra.files path := hleft
  refine ⟨?_, ?_, ?_⟩
  · obtain ⟨config, hconfig, hname⟩ := hc.pidFile hentry
    obtain ⟨status, hinv, hsettled⟩ := hc.loopHead.inv hc.selects
    refine ⟨config, Classical.byContradiction fun hnot => ?_, hname⟩
    have hrunning := hinv.config_running pid config hconfig
    rw [(hsettled config).2 hnot] at hrunning
    cases hrunning
  · rw [hleft]
    cases s.extra.files path with
    | none => simp
    | some content => simp
  · intro content hcontent
    rw [hleft] at hcontent
    split at hcontent
    · cases hcontent
    · exact hcontent

/-! ## The other side -/

/-- The path of an entry of the log directory. -/
def Campaign.logPath (campaign : Campaign) (name : Text) : Text :=
  campaign.directory ++ "/logs/".toList ++ name

/-- The log directory as `asanProcess.sh` finds it. -/
def ListsLogs (campaign : Campaign) (dir : LogDirectory) (files : Text → Option Text) : Prop :=
  ∀ name lines, (name, lines) ∈ dir.entries ↔ '/' ∉ name
    ∧ ∃ content, files (campaign.logPath name) = some content ∧ lines = LineTools.linesOf content

/-- The text of a report of the exit hook. -/
structure IsExitReport (lines : List Text) : Prop where
  checkFailed : ∃ line ∈ lines, checkFailedText <:+: line
  exitCallback : ∃ line ∈ lines, exitCallbackText <:+: line
  noError : ∀ line ∈ lines, ¬ asanErrorText <:+: line
  noSignal : ∀ line ∈ lines, ¬ deadlySignalText <:+: line

/-- `file` is the log of a child in its launch `n` of `config`. -/
structure IsLogOf (c : Shutdown) (file : Text) (pid config n : Nat) : Prop where
  fuzzer : pid ∈ c.fuzzerPids
  profile : c.supervisor.fuzzerConfigs.get pid = some config
  launch : c.sanitizerPrefix pid = c.campaign.sanitizerPrefix config n
  name : file = launchLogName (Text.ofNat config)
    (c.campaign.campaignId ++ "-".toList ++ Text.ofNat n) (Text.ofNat pid)

/-- The error log of `config` has the exit line of `pid`, in its launch `n`. -/
def LogsExit (c : Shutdown) (dir : LogDirectory) (pid config n : Nat) : Prop :=
  ∃ pre post, (errorLogName (Text.ofNat config), pre ++ exitLine (Text.ofNat pid) :: post)
      ∈ dir.entries
    ∧ MostRecentLaunch pre (c.campaign.campaignId ++ "-".toList ++ Text.ofNat n)

section Candidates

variable {c : Shutdown} {selected : List Nat}

/-- What the supervisor writes is what the other side looks for. -/
theorem linesOf_recordText (c : Shutdown) (pid : Nat) :
    ∃ status ∈ stopStatuses, LineTools.linesOf (c.recordText pid) = [status] := by
  unfold Shutdown.recordText
  cases c.stopSignal pid with
  | term => exact ⟨"status=72".toList, by simp [stopStatuses], rfl⟩
  | kill => exact ⟨"status=137".toList, by simp [stopStatuses], rfl⟩

theorem slash_notMem_suffix : '/' ∉ supervisorStopSuffix := by
  unfold supervisorStopSuffix
  simp

theorem sanitizerLog_eq {pid config n : Nat}
    (hlaunch : c.sanitizerPrefix pid = c.campaign.sanitizerPrefix config n) :
    c.sanitizerLog pid = c.campaign.logPath (launchLogName (Text.ofNat config)
      (c.campaign.campaignId ++ "-".toList ++ Text.ofNat n) (Text.ofNat pid)) := by
  rw [Shutdown.sanitizerLog, hlaunch]
  simp [Campaign.sanitizerPrefix, Campaign.logPath, launchLogName, asanPrefix, logInfix, dot]

/-- A log in the log directory is the log of a fuzzing child. -/
theorem isLogOf_of_logPath (hc : c.Reached selected) {pid : Nat} {name : Text}
    (hlog : c.campaign.logPath name = c.sanitizerLog pid) :
    ∃ config n, IsLogOf c name pid config n := by
  cases hprefix : c.supervisor.fuzzerSanitizerPrefixes.get pid with
  | none =>
      exfalso
      have hslash : '/' ∈ c.sanitizerLog pid := by
        rw [← hlog]
        simp [Campaign.logPath]
      rw [Shutdown.sanitizerLog, Shutdown.sanitizerPrefix, hprefix] at hslash
      have hdigit : '/' ∈ Text.ofNat pid := by simpa using hslash
      cases Text.isDigit_ofNat hdigit
  | some path =>
      obtain ⟨config, n, hconfig, rfl⟩ := hc.loopHead.named.prefixes pid path hprefix
      obtain ⟨status, hinv, -⟩ := hc.loopHead.inv hc.selects
      have hlaunch : c.sanitizerPrefix pid = c.campaign.sanitizerPrefix config n := by
        rw [Shutdown.sanitizerPrefix, hprefix]
        rfl
      have hfuzzer := (hinv.tables.sanitizerPrefixes pid).mp
        (AssocMap.get_isSome_iff.mp (Option.isSome_iff_exists.mpr ⟨_, hprefix⟩))
      rw [sanitizerLog_eq hlaunch] at hlog
      exact ⟨config, n, hfuzzer, hconfig, hlaunch, List.append_cancel_left hlog⟩

theorem isNumber_ofNat (n : Nat) : IsNumber (Text.ofNat n) :=
  ⟨Nat.toDigits_ne_nil, fun _ => Text.isDigit_ofNat⟩

theorem isLaunchId_launch {campaignId : Text} (h : IsLaunchId campaignId) (n : Nat) :
    IsLaunchId (campaignId ++ "-".toList ++ Text.ofNat n) := by
  refine ⟨by simp, fun ch hch => ?_⟩
  rcases List.mem_append.mp hch with hch | hch
  · rcases List.mem_append.mp hch with hch | hch
    · exact h.2 ch hch
    · rw [List.mem_singleton.mp hch]
      rfl
  · have hdigit := Text.isDigit_ofNat hch
    simp [isLaunchIdChar, Char.isAlphanum, hdigit]

theorem IsLogOf.readAsanName {file : Text} {pid config n : Nat}
    (hid : IsLaunchId c.campaign.campaignId) (h : IsLogOf c file pid config n) :
    readAsanName file = some ⟨Text.ofNat config,
      some (c.campaign.campaignId ++ "-".toList ++ Text.ofNat n), Text.ofNat pid⟩ :=
  readAsanName_eq_some_iff.mpr
    ⟨isNumber_ofNat config, isLaunchId_launch hid n, isNumber_ofNat pid, h.name⟩

/-- A report for which there had been no record is a candidate exactly if
it is the report of an exit hook and of a fuzzing child that the supervisor
stopped. -/
theorem candidate_iff_stopped (hc : c.Reached selected) (hid : IsLaunchId c.campaign.campaignId)
    {s t : Stopping} (hsignals : s.signals = []) (hexpected : s.extra.stopExpected = .empty)
    (h : Exec (Meanwhile c) c.cleanup s t) {dir : LogDirectory}
    (hdir : ListsLogs c.campaign dir t.extra.files) {file : Text × List Text}
    (hfile : file ∈ dir.entries)
    (hnew : s.extra.files (c.campaign.logPath (supervisorRecord file.1)) = none)
    {configId launchId number : Text} :
    StopCandidate dir file configId launchId number ↔ IsExitReport file.2
      ∧ ∃ pid config n, IsLogOf c file.1 pid config n ∧ Stopped c t pid
        ∧ configId = Text.ofNat config
        ∧ launchId = c.campaign.campaignId ++ "-".toList ++ Text.ofNat n
        ∧ number = Text.ofNat pid := by
  obtain ⟨hwritten, hkept⟩ := records_of_cleanup hc hsignals hexpected h
  have hpath : c.campaign.logPath (supervisorRecord file.1)
      = c.campaign.logPath file.1 ++ supervisorStopSuffix := by
    simp [supervisorRecord, Campaign.logPath]
  constructor
  · intro hcandidate
    refine ⟨⟨hcandidate.checkFailed, hcandidate.exitCallback, hcandidate.noError,
      hcandidate.noSignal⟩, ?_⟩
    obtain ⟨record, hrecord, -⟩ := hcandidate.stopped
    obtain ⟨-, content, hcontent, -⟩ := (hdir _ _).mp hrecord
    rw [hpath] at hnew hcontent
    -- a record that was not there has been written for a child that was stopped
    have hnewly : ∃ pid ∈ c.childPids, Stopped c t pid
        ∧ c.campaign.logPath file.1 ++ supervisorStopSuffix = c.stopRecord pid := by
      refine Classical.byContradiction fun hnot => ?_
      rw [hkept _ fun pid hpid hstopped heq => hnot ⟨pid, hpid, hstopped, heq⟩, hnew] at hcontent
      cases hcontent
    obtain ⟨pid, -, hstopped, heq⟩ := hnewly
    obtain ⟨config, n, hlog⟩ := isLogOf_of_logPath hc (List.append_cancel_right heq)
    have hread := readAsanName_eq_some_iff.mpr
      ⟨hcandidate.config, hcandidate.launch, hcandidate.number, hcandidate.name⟩
    rw [hlog.readAsanName hid] at hread
    simp only [Option.some.injEq, AsanName.mk.injEq] at hread
    obtain ⟨rfl, rfl, rfl⟩ := hread
    exact ⟨pid, config, n, hlog, hstopped, rfl, rfl, rfl⟩
  · rintro ⟨hreport, pid, config, n, hlog, hstopped, rfl, rfl, rfl⟩
    obtain ⟨status, hstatus, hlines⟩ := linesOf_recordText c pid
    have hrecord : (supervisorRecord file.1, [status]) ∈ dir.entries := by
      refine (hdir _ _).mpr ⟨?_, c.recordText pid, ?_, hlines.symm⟩
      · intro hslash
        rcases List.mem_append.mp hslash with hslash | hslash
        · exact ((hdir file.1 file.2).mp hfile).1 hslash
        · exact slash_notMem_suffix hslash
      · rw [hpath, hlog.name, ← sanitizerLog_eq hlog.launch]
        exact hwritten pid (List.mem_append_left _ hlog.fuzzer) hstopped
    exact
      { config := isNumber_ofNat config
        launch := isLaunchId_launch hid n
        number := isNumber_ofNat pid
        name := hlog.name
        stopped := ⟨[status], hrecord, status, hstatus, List.mem_singleton_self _⟩
        checkFailed := hreport.checkFailed
        exitCallback := hreport.exitCallback
        noError := hreport.noError
        noSignal := hreport.noSignal }

/-- After a campaign has been stopped, a log for which there had been no
record is taken for a harness shutdown exactly if it is the report of an
exit hook and of a fuzzing child that the supervisor stopped, and the
error log has the exit line of that child in that launch. -/
theorem harness_shutdown_iff_stopped (hc : c.Reached selected)
    (hid : IsLaunchId c.campaign.campaignId) {s t : Stopping} (hsignals : s.signals = [])
    (hexpected : s.extra.stopExpected = .empty) (h : Exec (Meanwhile c) c.cleanup s t)
    {dir : LogDirectory} (hdir : ListsLogs c.campaign dir t.extra.files)
    {file : Text × List Text} (hfile : file ∈ dir.entries)
    (hnew : s.extra.files (c.campaign.logPath (supervisorRecord file.1)) = none) :
    isHarnessShutdown dir file = true ↔ IsExitReport file.2
      ∧ ∃ pid config n, IsLogOf c file.1 pid config n ∧ Stopped c t pid
        ∧ LogsExit c dir pid config n := by
  have hcandidate : ∀ {configId launchId number}, StopCandidate dir file configId launchId number
      ↔ _ := candidate_iff_stopped hc hid hsignals hexpected h hdir hfile hnew
  rw [isHarnessShutdown_iff hfile]
  constructor
  · rintro ⟨configId, launchId, number, hstop, lines, herror, pre, post, rfl, hrecent⟩
    obtain ⟨hreport, pid, config, n, hlog, hstopped, rfl, rfl, rfl⟩ := hcandidate.mp hstop
    exact ⟨hreport, pid, config, n, hlog, hstopped, pre, post, herror, hrecent⟩
  · rintro ⟨hreport, pid, config, n, hlog, hstopped, pre, post, herror, hrecent⟩
    exact ⟨_, _, _, hcandidate.mpr ⟨hreport, pid, config, n, hlog, hstopped, rfl, rfl, rfl⟩, _,
      herror, pre, post, rfl, hrecent⟩

end Candidates

/-! ## One fuzzing child -/

def demoLogName : Text := launchLogName "1".toList "c-1".toList "100".toList

def demoReport : Text :=
  "AddressSanitizer: CHECK failed: asan_report.cpp:227\nfuzzer::Fuzzer::ExitCallback\n".toList

def demoErrors : Text :=
  "--- supervisor launch c-1 ---\n==100== ERROR: libFuzzer: fuzz target exited\n".toList

/-- The child has a report and an exit line, and its PID file names it. -/
def demoFiles (path : Text) : Option Text :=
  if path = "/w/logs/".toList ++ demoLogName then some demoReport
  else if path = Supervisor.demoCampaign.errorLog 1 then some demoErrors
  else if path = "/w/run/run_1/run.pid".toList then some "100\n".toList
  else none

def demoErrorLines : List Text :=
  ["--- supervisor launch c-1 ---".toList, "==100== ERROR: libFuzzer: fuzz target exited".toList,
    "--- supervisor launch c-1 ---".toList]

/-- The log directory in the end. -/
def demoLogs : LogDirectory where
  entries := [(demoLogName, LineTools.linesOf demoReport),
    (supervisorRecord demoLogName, ["status=72".toList]), ("error1".toList, demoErrorLines)]
  nodup := by decide

theorem reached_demo : demoShutdown.Reached [1] where
  selects := .one (by simp [demoShutdown, Campaign.configIds, Supervisor.demoCampaign])
  loopHead := .start
    (.cons (⟨by decide, rfl⟩ : Supervisor.Fresh .init (Supervisor.demoAttempt 10 100)) rfl .nil)
  readyFile := .inr ⟨7, rfl⟩

theorem stopped_demo : Stopped demoShutdown (demoStopped demoFiles) 100 where
  signalled := by decide
  ended := ⟨true, rfl⟩
  logged := rfl

theorem files_demo (path : Text) : (demoStopped demoFiles).extra.files path
    = if path = "/w/run/run_1/run.pid".toList then none
      else if path = demoShutdown.backendReadyFile then none
      else if path = demoShutdown.stopRecord 100 then some "status=72\n".toList
      else if path = Supervisor.demoCampaign.errorLog 1 then
        some (demoErrors ++ "--- supervisor launch c-1 ---\n".toList)
      else demoFiles path := rfl

theorem linesOf_demo :
    LineTools.linesOf (demoErrors ++ "--- supervisor launch c-1 ---\n".toList) = demoErrorLines := by
  decide +kernel

theorem logPath_demo {name name' : Text}
    (h : Supervisor.demoCampaign.logPath name = "/w/logs/".toList ++ name') : name = name' :=
  List.append_cancel_left h

theorem listsLogs_demo :
    ListsLogs Supervisor.demoCampaign demoLogs (demoStopped demoFiles).extra.files := by
  intro name lines
  constructor
  · intro hmem
    have hcases : (name = demoLogName ∧ lines = LineTools.linesOf demoReport)
        ∨ (name = supervisorRecord demoLogName ∧ lines = ["status=72".toList])
        ∨ (name = "error1".toList ∧ lines = demoErrorLines) := by
      simpa [demoLogs] using hmem
    rcases hcases with ⟨rfl, rfl⟩ | ⟨rfl, rfl⟩ | ⟨rfl, rfl⟩
    · exact ⟨by decide, _, rfl, rfl⟩
    · exact ⟨by decide, _, rfl, rfl⟩
    · exact ⟨by decide, _, rfl, linesOf_demo.symm⟩
  · rintro ⟨-, content, hcontent, rfl⟩
    rw [files_demo] at hcontent
    split_ifs at hcontent with hpid hready hrecord herror
    · have hname : name = supervisorRecord demoLogName := logPath_demo hrecord
      subst hname
      cases hcontent
      exact List.mem_cons_of_mem _ List.mem_cons_self
    · have hname : name = "error1".toList := logPath_demo herror
      subst hname
      obtain rfl := Option.some.inj hcontent
      rw [linesOf_demo]
      exact List.mem_cons_of_mem _ (List.mem_cons_of_mem _ List.mem_cons_self)
    · unfold demoFiles at hcontent
      rw [if_neg herror, if_neg hpid] at hcontent
      split at hcontent
      · next hlog =>
          obtain rfl := logPath_demo hlog
          cases hcontent
          exact List.mem_cons_self
      · cases hcontent

theorem exec_demo : Exec (Meanwhile demoShutdown) demoShutdown.cleanup (demoStopping demoFiles)
    (demoStopped demoFiles) := exec_of_run rfl

theorem records_of_cleanup_demo :
    Stopped demoShutdown (demoStopped demoFiles) 100
    ∧ (∀ pid ∈ demoShutdown.childPids, Stopped demoShutdown (demoStopped demoFiles) pid →
      (demoStopped demoFiles).extra.files (demoShutdown.stopRecord pid)
        = some (demoShutdown.recordText pid))
    ∧ ∀ path, (∀ pid ∈ demoShutdown.childPids, Stopped demoShutdown (demoStopped demoFiles) pid →
        path ++ supervisorStopSuffix ≠ demoShutdown.stopRecord pid) →
      (demoStopped demoFiles).extra.files (path ++ supervisorStopSuffix)
        = demoFiles (path ++ supervisorStopSuffix) :=
  ⟨stopped_demo, records_of_cleanup reached_demo rfl rfl exec_demo⟩

theorem pidFiles_of_cleanup_demo :
    (∃ config ∈ [1], "/w/run/run_1/run.pid".toList = Supervisor.demoCampaign.pidFile config)
    ∧ ((demoStopped demoFiles).extra.files "/w/run/run_1/run.pid".toList = none
      ↔ ∀ content, demoFiles "/w/run/run_1/run.pid".toList = some content →
        firstLine content = Text.ofNat 100)
    ∧ ∀ content, (demoStopped demoFiles).extra.files "/w/run/run_1/run.pid".toList = some content →
      demoFiles "/w/run/run_1/run.pid".toList = some content :=
  pidFiles_of_cleanup reached_demo exec_demo rfl

theorem harness_shutdown_iff_stopped_demo :
    isHarnessShutdown demoLogs (demoLogName, LineTools.linesOf demoReport) = true := by
  have hid : IsLaunchId demoShutdown.campaign.campaignId := ⟨by decide, List.all_eq_true.mp rfl⟩
  refine (harness_shutdown_iff_stopped reached_demo hid rfl rfl exec_demo listsLogs_demo
    List.mem_cons_self rfl).mpr ⟨?_, 100, 1, 1, ?_, stopped_demo, ?_⟩
  · exact ⟨⟨_, List.mem_cons_self, List.infix_refl _⟩,
      ⟨_, List.mem_cons_of_mem _ List.mem_cons_self, List.infix_refl _⟩,
      by decide +kernel, by decide +kernel⟩
  · exact ⟨by decide, rfl, rfl, rfl⟩
  · refine ⟨["--- supervisor launch c-1 ---".toList], ["--- supervisor launch c-1 ---".toList],
      List.mem_cons_of_mem _ (List.mem_cons_of_mem _ List.mem_cons_self), ?_, [], [], rfl, ?_⟩
    · exact isLaunchId_launch hid 1
    · exact fun _ h => by cases h

end LighttpdFuzz

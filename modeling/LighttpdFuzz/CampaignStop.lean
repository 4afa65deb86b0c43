import LighttpdFuzz.ActiveProfiles
import LighttpdFuzz.HarnessShutdown
import LighttpdFuzz.ProcessGroups
import LighttpdFuzz.SupervisorLoop

/-!
# Stopping a campaign

When `run.sh` ends, for whatever reason, its EXIT trap runs `cleanup`: the
fuzzing children get the signal that ends them, the packet capture and the
backend are asked to end, and after some time whatever is left of any of
their process groups is asked again and then forced. A child that ended as
its signal makes it end gets a record beside its sanitizer log, by which
`asanProcess.sh` knows that the supervisor stopped it. At last the PID
files go, unless somebody else has put another number into them.

Meanwhile the children act as they like: they end sooner or later or not
at all, and go on writing their logs (`Meanwhile`). A child has its own
process group from the beginning.
-/

namespace LighttpdFuzz

open ProcessGroups Script

/-! ## The state -/

/-- What `cleanup` has beside the children. -/
structure CampaignState where
  /-- `supervisor_stop_expected` -/
  stopExpected : AssocMap Nat Nat
  /-- `wait_status` -/
  waitStatus : Nat
  /-- The regular files, by their paths. -/
  files : Text → Option Text

abbrev Stopping := Processes CampaignState

def StopSignal.signal : StopSignal → Signal
  | .term => .term
  | .kill => .kill

/-- The status of a child that the signal ends: `interrupt_exitcode` of
libFuzzer, or that of a killed process. -/
def StopSignal.status : StopSignal → Nat
  | .term => 72
  | .kill => 137

namespace Stopping

def withFiles (s : Stopping) (files : Text → Option Text) : Stopping :=
  { s with extra := { s.extra with files := files } }

/-- `printf ... >>"$path"` -/
def appendTo (path text : Text) (s : Stopping) : Stopping :=
  s.withFiles fun path' =>
    if path' = path then some ((s.extra.files path).getD [] ++ text) else s.extra.files path'

/-- `printf ... >"$path"` -/
def writeTo (path text : Text) (s : Stopping) : Stopping :=
  s.withFiles fun path' => if path' = path then some text else s.extra.files path'

/-- `rm -f "$path"` -/
def remove (path : Text) (s : Stopping) : Stopping :=
  s.withFiles fun path' => if path' = path then none else s.extra.files path'

/-- `kill -"$signal" "$pid"`, and what is noted if it succeeds. -/
def signalFuzzer (signal : StopSignal) (pid : Nat) (s : Stopping) : Stopping :=
  if s.present pid then
    { s.send signal.signal (.process pid) with
      extra := { s.extra with stopExpected := s.extra.stopExpected.set pid signal.status } }
  else s

/-- `wait_status` after `wait "$pid"` -/
def collect (pid : Nat) (s : Stopping) : Stopping :=
  match s.phase pid with
  | .running => s
  | .ended status _ => { s.reap pid with extra := { s.extra with waitStatus := status } }

end Stopping

/-! ## The script -/

/-- What does not change while `cleanup` runs. -/
structure Shutdown where
  campaign : Campaign
  supervisor : Supervisor
  /-- Whether `LOG_OUTPUT` is 1. -/
  logOutput : Bool
  capturePids : List Nat
  backendPids : List Nat
  /-- `backend_ready_file`; empty if there is no backend. -/
  backendReadyFile : Text

/-- `${text##*separator}` -/
def afterLast (separator : Text) : Text → Text
  | [] => []
  | c :: t =>
      if separator <:+: t then afterLast separator t
      else if separator <+: c :: t then (c :: t).drop separator.length
      else c :: t

def Campaign.errorLog (campaign : Campaign) (config : Nat) : Text :=
  campaign.directory ++ "/logs/error".toList ++ Text.ofNat config

/-- `backend_ready_file`, of a shell -/
def Campaign.readyFile (campaign : Campaign) (shell : Nat) : Text :=
  campaign.directory ++ "/run/backend-responder.".toList ++ Text.ofNat shell ++ ".ready".toList

namespace Shutdown

def fuzzerPids (c : Shutdown) : List Nat := c.supervisor.fuzzerPids.values

/-- `child_pids` -/
def childPids (c : Shutdown) : List Nat := c.fuzzerPids ++ c.capturePids

/-- `${fuzzer_stop_signals[$pid]:-KILL}` -/
def stopSignal (c : Shutdown) (pid : Nat) : StopSignal :=
  (c.supervisor.fuzzerStopSignals.get pid).getD .kill

/-- `${fuzzer_sanitizer_prefixes[$pid]:-}` -/
def sanitizerPrefix (c : Shutdown) (pid : Nat) : Text :=
  (c.supervisor.fuzzerSanitizerPrefixes.get pid).getD []

def sanitizerLog (c : Shutdown) (pid : Nat) : Text :=
  c.sanitizerPrefix pid ++ '.' :: Text.ofNat pid

def launchId (c : Shutdown) (pid : Nat) : Text :=
  afterLast ".log.".toList (c.sanitizerPrefix pid)

/-- The launch is named again in the error log, in front of what the
signal makes the child write. -/
def markLaunch (c : Shutdown) (pid : Nat) : Script Stopping :=
  match c.supervisor.fuzzerConfigs.get pid with
  | none => skip
  | some config =>
      if c.logOutput ∧ c.sanitizerPrefix pid ≠ [] then
        act (.appendTo (c.campaign.errorLog config) (launchLine (c.launchId pid) ++ ['\n']))
      else skip

/-- The first loop of `cleanup`. -/
def stopFuzzer (c : Shutdown) (pid : Nat) : Script Stopping :=
  if c.campaign.fuzz then seq (c.markLaunch pid) (act (.signalFuzzer (c.stopSignal pid) pid))
  else ask pid

def stopRecord (c : Shutdown) (pid : Nat) : Text :=
  c.sanitizerLog pid ++ supervisorStopSuffix

/-- `printf 'status=%s\n'` -/
def statusLine (status : Nat) : Text := "status=".toList ++ Text.ofNat status

def writeRecord (c : Shutdown) (pid : Nat) (s : Stopping) : Stopping :=
  s.writeTo (c.stopRecord pid) (statusLine s.extra.waitStatus ++ ['\n'])

/-- Wait for a child, and record that it was stopped. -/
def waitAndRecord (c : Shutdown) (pid : Nat) : Script Stopping :=
  seq (await (·.hasEnded pid)) (seq (act (.collect pid))
    (ite (fun s => s.extra.stopExpected.get pid = some s.extra.waitStatus
        ∧ (s.extra.files (c.sanitizerLog pid)).isSome)
      (act (c.writeRecord pid)) skip))

/-- Force what is left of the backend, and wait for it. -/
def endBackend (pid : Nat) : Script Stopping := seq (forceIfAlive pid) (waitFor pid)

/-- Remove a PID file in which the child still stands. -/
def removePidFile (file : Nat × Text) : Script Stopping :=
  ite (fun s => (s.extra.files file.2).any fun content => firstLine content = Text.ofNat file.1)
    (act (.remove file.2)) skip

/-- Ask what is left after 10 seconds, and force what is left then. -/
def endGroups (pids : List Nat) : Script Stopping :=
  seq (waitForGroups 100 pids) (seq (forEach pids askIfAlive)
    (seq (waitForGroups 20 pids) (forEach pids forceIfAlive)))

/-- The children that are not the backend. -/
def stopChildren (c : Shutdown) : Script Stopping :=
  if c.childPids = [] then skip
  else seq (endGroups c.childPids) (forEach c.childPids c.waitAndRecord)

def stopBackend (c : Shutdown) : Script Stopping :=
  if c.backendPids = [] then skip
  else seq (waitForGroups 50 c.backendPids) (forEach c.backendPids endBackend)

/-- The first three loops. The backend is asked along with the others:
waiting for all of them first could leave it behind. -/
def askAll (c : Shutdown) : Script Stopping :=
  seq (forEach c.fuzzerPids c.stopFuzzer) (seq (forEach c.capturePids ask)
    (forEach c.backendPids ask))

/-- The files that go at the end. -/
def removeFiles (c : Shutdown) : Script Stopping :=
  seq (if c.backendReadyFile = [] then skip else act (.remove c.backendReadyFile))
    (forEach c.supervisor.serverPidFiles.entries removePidFile)

/-- `cleanup` -/
def cleanup (c : Shutdown) : Script Stopping :=
  seq c.askAll (seq c.stopChildren (seq (forEach c.backendPids ask)
    (seq c.stopBackend c.removeFiles)))

end Shutdown

/-! ## What the children do meanwhile -/

/-- The variables of the script are its own. Nobody else writes records
or the PID files of the campaign, error logs only grow, and the sanitizer
log of a child neither comes nor goes once the child has ended. -/
structure Meanwhile (c : Shutdown) (s s' : Stopping) : Prop where
  quiet : Quiet s s'
  stopExpected : s'.extra.stopExpected = s.extra.stopExpected
  waitStatus : s'.extra.waitStatus = s.extra.waitStatus
  records : ∀ path, s'.extra.files (path ++ supervisorStopSuffix)
    = s.extra.files (path ++ supervisorStopSuffix)
  pidFiles : ∀ file ∈ c.supervisor.serverPidFiles.entries,
    s'.extra.files file.2 = s.extra.files file.2
  errorLogs : ∀ config content, s.extra.files (c.campaign.errorLog config) = some content →
    ∃ more, s'.extra.files (c.campaign.errorLog config) = some (content ++ more)
  logs : ∀ pid, s.hasEnded pid = true →
    (s'.extra.files (c.sanitizerLog pid)).isSome = (s.extra.files (c.sanitizerLog pid)).isSome

/-! ## What the script does -/

/-- Most actions are plain; the others stand in one place of the script
each, but for the force. -/
inductive CleanupKind where
  | plain | stop | force | record | removePidFile
  deriving DecidableEq, Repr

/-- The actions of `cleanup`. -/
inductive CleanupAction (c : Shutdown) : CleanupKind → (Stopping → Stopping) → Prop
  | mark {pid config : Nat} : pid ∈ c.fuzzerPids →
      c.supervisor.fuzzerConfigs.get pid = some config →
      CleanupAction c .stop (Stopping.appendTo (c.campaign.errorLog config)
        (launchLine (c.launchId pid) ++ ['\n']))
  | signal {pid : Nat} : c.campaign.fuzz = true → pid ∈ c.fuzzerPids →
      CleanupAction c .stop (Stopping.signalFuzzer (c.stopSignal pid) pid)
  | ask {pid : Nat} : pid ∈ c.childPids ++ c.backendPids →
      CleanupAction c .plain (Processes.send .term (.group pid))
  | clearRunning : CleanupAction c .plain Processes.clearRunning
  | noteAlive {pid : Nat} : CleanupAction c .plain (Processes.noteAlive pid)
  | force {pid : Nat} : pid ∈ c.childPids ++ c.backendPids →
      CleanupAction c .force (Processes.send .kill (.group pid))
  | collect {pid : Nat} : CleanupAction c .plain (Stopping.collect pid)
  | record {pid : Nat} : pid ∈ c.childPids → CleanupAction c .record (c.writeRecord pid)
  | reap {pid : Nat} : CleanupAction c .plain (Processes.reap pid)
  | removeReady : CleanupAction c .plain (Stopping.remove c.backendReadyFile)
  | removePidFile {file : Nat × Text} : file ∈ c.supervisor.serverPidFiles.entries →
      CleanupAction c .removePidFile (Stopping.remove file.2)

/-- The actions of the script are actions of `cleanup` of the kinds. -/
def HasKinds (c : Shutdown) (kinds : List CleanupKind) (d : Script Stopping) : Prop :=
  ∀ f, d.IsAction f → ∃ kind ∈ kinds, CleanupAction c kind f

section Actions

variable {c : Shutdown} {f : Stopping → Stopping} {kinds kinds' : List CleanupKind}
  {d d' : Script Stopping}

theorem HasKinds.mono (h : HasKinds c kinds d) (hkinds : kinds ⊆ kinds') :
    HasKinds c kinds' d := fun f hf =>
  let ⟨kind, hkind, haction⟩ := h f hf
  ⟨kind, hkinds hkind, haction⟩

theorem hasKinds_skip : HasKinds c kinds skip := fun _ => False.elim

theorem hasKinds_await (test : Stopping → Bool) : HasKinds c kinds (.await test) :=
  fun _ => False.elim

theorem hasKinds_act {g : Stopping → Stopping} {kind : CleanupKind}
    (h : CleanupAction c kind g) (hkind : kind ∈ kinds) : HasKinds c kinds (act g) := by
  rintro f rfl
  exact ⟨kind, hkind, h⟩

theorem HasKinds.seq (h : HasKinds c kinds d) (h' : HasKinds c kinds d') :
    HasKinds c kinds (.seq d d') :=
  fun f hf => hf.elim (h f) (h' f)

theorem HasKinds.ite {test : Stopping → Bool} (h : HasKinds c kinds d)
    (h' : HasKinds c kinds d') : HasKinds c kinds (.ite test d d') :=
  fun f hf => hf.elim (h f) (h' f)

theorem HasKinds.forEach {α : Type} {xs : List α} {body : α → Script Stopping}
    (h : ∀ x ∈ xs, HasKinds c kinds (body x)) : HasKinds c kinds (.forEach xs body) := by
  intro f hf
  obtain ⟨x, hx, hf⟩ := isAction_forEach.mp hf
  exact h x hx f hf

theorem hasKinds_stopFuzzer {pid : Nat} (hpid : pid ∈ c.fuzzerPids) :
    HasKinds c [.plain, .stop] (c.stopFuzzer pid) := by
  unfold Shutdown.stopFuzzer
  split
  · next hfuzz =>
      refine .seq ?_ (hasKinds_act (.signal hfuzz hpid) (by simp))
      unfold Shutdown.markLaunch
      split
      · exact hasKinds_skip
      · next config hconfig =>
          split
          · exact hasKinds_act (.mark hpid hconfig) (by simp)
          · exact hasKinds_skip
  · exact hasKinds_act (.ask (List.mem_append_left _ (List.mem_append_left _ hpid))) (by simp)

theorem hasKinds_waitForGroups (rounds : Nat) (pids : List Nat) :
    HasKinds c [.plain] (waitForGroups rounds pids) := by
  intro f hf
  refine ⟨.plain, List.mem_singleton_self _, ?_⟩
  rcases isAction_upTo hf with rfl | hf
  · exact .clearRunning
  · obtain ⟨pid, -, rfl⟩ := isAction_forEach.mp hf
    exact .noteAlive

theorem hasKinds_ask {pid : Nat} (hpid : pid ∈ c.childPids ++ c.backendPids) :
    HasKinds c [.plain] (ask pid) :=
  hasKinds_act (.ask hpid) (List.mem_singleton_self _)

theorem hasKinds_askIfAlive {pid : Nat} (hpid : pid ∈ c.childPids ++ c.backendPids) :
    HasKinds c [.plain] (askIfAlive pid) :=
  .ite (hasKinds_ask hpid) hasKinds_skip

theorem hasKinds_forceIfAlive {pid : Nat} (hpid : pid ∈ c.childPids ++ c.backendPids) :
    HasKinds c [.force] (forceIfAlive pid) :=
  .ite (hasKinds_act (.force hpid) (List.mem_singleton_self _)) hasKinds_skip

theorem hasKinds_waitFor (pid : Nat) : HasKinds c [.plain] (waitFor pid) :=
  .seq (hasKinds_await _) (hasKinds_act .reap (List.mem_singleton_self _))

theorem hasKinds_waitAndRecord {pid : Nat} (hpid : pid ∈ c.childPids) :
    HasKinds c [.plain, .record] (c.waitAndRecord pid) :=
  .seq (hasKinds_await _) (.seq (hasKinds_act .collect (by simp))
    (.ite (hasKinds_act (.record hpid) (by simp)) hasKinds_skip))

theorem hasKinds_records :
    HasKinds c [.plain, .record] (.forEach c.childPids c.waitAndRecord) :=
  .forEach fun _ hpid => hasKinds_waitAndRecord hpid

theorem hasKinds_askBackends : HasKinds c [.plain] (.forEach c.backendPids ask) :=
  .forEach fun _ hpid => hasKinds_ask (List.mem_append_right _ hpid)

theorem hasKinds_askAll : HasKinds c [.plain, .stop] c.askAll := by
  refine .seq (.forEach fun _ hpid => hasKinds_stopFuzzer hpid) (.seq (.forEach fun pid hpid => ?_)
    (hasKinds_askBackends.mono (by simp)))
  have hmem : pid ∈ c.childPids := List.mem_append_right _ hpid
  exact (hasKinds_ask (List.mem_append_left _ hmem)).mono (by simp)

theorem hasKinds_endGroups {pids : List Nat}
    (hpids : ∀ pid ∈ pids, pid ∈ c.childPids ++ c.backendPids) :
    HasKinds c [.plain, .force] (Shutdown.endGroups pids) := by
  have hwait : ∀ rounds, HasKinds c [.plain, .force] (waitForGroups rounds pids) :=
    fun rounds => (hasKinds_waitForGroups rounds pids).mono (by simp)
  refine .seq (hwait 100) (.seq (.forEach fun pid hpid => ?_)
    (.seq (hwait 20) (.forEach fun pid hpid => ?_)))
  · exact (hasKinds_askIfAlive (hpids pid hpid)).mono (by simp)
  · exact (hasKinds_forceIfAlive (hpids pid hpid)).mono (by simp)

theorem hasKinds_stopChildren : HasKinds c [.plain, .force, .record] c.stopChildren := by
  unfold Shutdown.stopChildren
  split
  · exact hasKinds_skip
  · exact .seq ((hasKinds_endGroups fun pid hpid => List.mem_append_left _ hpid).mono (by simp))
      (hasKinds_records.mono (by simp))

theorem hasKinds_stopBackend : HasKinds c [.plain, .force] c.stopBackend := by
  unfold Shutdown.stopBackend
  split
  · exact hasKinds_skip
  · refine .seq ((hasKinds_waitForGroups _ _).mono (by simp)) (.forEach fun pid hpid => ?_)
    exact .seq ((hasKinds_forceIfAlive (List.mem_append_right _ hpid)).mono (by simp))
      ((hasKinds_waitFor pid).mono (by simp))

theorem hasKinds_removeFiles : HasKinds c [.plain, .removePidFile] c.removeFiles := by
  refine .seq ?_ (.forEach fun file hfile => ?_)
  · split
    · exact hasKinds_skip
    · exact hasKinds_act .removeReady (by simp)
  · exact .ite (hasKinds_act (.removePidFile hfile) (by simp)) hasKinds_skip

theorem hasKinds_cleanup :
    HasKinds c [.plain, .stop, .force, .record, .removePidFile] c.cleanup :=
  .seq (hasKinds_askAll.mono (by simp)) (.seq (hasKinds_stopChildren.mono (by simp))
    (.seq (hasKinds_askBackends.mono (by simp)) (.seq (hasKinds_stopBackend.mono (by simp))
      (hasKinds_removeFiles.mono (by simp)))))

/-! ## The process groups -/

theorem tame_withFiles {g : Stopping → Text → Option Text} :
    Tame fun s : Stopping => s.withFiles (g s) where
  gone _ _ h := h
  signals _ := List.Subset.refl _

theorem tame_signalFuzzer (signal : StopSignal) (pid : Nat) :
    Tame (Stopping.signalFuzzer signal pid) where
  gone s pid' h := by
    unfold Stopping.signalFuzzer
    split
    · exact (tame_send signal.signal (.process pid)).gone s pid' h
    · exact h
  signals s := by
    unfold Stopping.signalFuzzer
    split
    · exact (tame_send signal.signal (.process pid)).signals s
    · exact List.Subset.refl _

theorem tame_collect (pid : Nat) : Tame (Stopping.collect pid) where
  gone s pid' h := by
    unfold Stopping.collect
    split
    · exact h
    · exact (tame_reap pid).gone s pid' h
  signals s := by
    unfold Stopping.collect
    split <;> exact List.Subset.refl _

theorem CleanupAction.tame {kind : CleanupKind} (h : CleanupAction c kind f) : Tame f := by
  cases h with
  | mark => exact tame_withFiles
  | signal => exact tame_signalFuzzer _ _
  | ask => exact tame_send _ _
  | clearRunning => exact tame_clearRunning
  | noteAlive => exact tame_noteAlive _
  | force => exact tame_send _ _
  | collect => exact tame_collect _
  | record => exact tame_withFiles
  | reap => exact tame_reap _
  | removeReady => exact tame_withFiles
  | removePidFile => exact tame_withFiles

/-- What may be sent: its own signal to a fuzzing child, and any signal to
a group of the campaign. -/
def Allowed (c : Shutdown) : Signal × Target → Prop
  | (signal, .process pid) =>
      c.campaign.fuzz = true ∧ pid ∈ c.fuzzerPids ∧ signal = (c.stopSignal pid).signal
  | (_, .group pid) => pid ∈ c.childPids ++ c.backendPids

theorem allowed_send {s : Stopping} (h : ∀ e ∈ s.signals, Allowed c e) {signal : Signal}
    {target : Target} (hnew : Allowed c (signal, target)) :
    ∀ e ∈ (s.send signal target).signals, Allowed c e := by
  unfold Processes.send
  split
  · refine fun e he => (List.mem_append.mp he).elim (h e) fun he => ?_
    rw [List.mem_singleton.mp he]
    exact hnew
  · exact h

theorem signals_signalFuzzer (signal : StopSignal) (pid : Nat) (s : Stopping) :
    (s.signalFuzzer signal pid).signals = (s.send signal.signal (.process pid)).signals := by
  unfold Stopping.signalFuzzer Processes.send
  by_cases hpresent : s.present pid = true
  · rw [if_pos hpresent, if_pos (show s.reaches (.process pid) = true from hpresent)]
  · rw [if_neg hpresent, if_neg (show ¬ s.reaches (.process pid) = true from hpresent)]

theorem signals_collect (pid : Nat) (s : Stopping) : (s.collect pid).signals = s.signals := by
  unfold Stopping.collect
  split <;> rfl

/-- What is sent is allowed, and only `force` forces a group. -/
theorem CleanupAction.signals {kind : CleanupKind} (h : CleanupAction c kind f) (s : Stopping) :
    (f s).signals = s.signals
      ∨ ∃ signal target, (f s).signals = (s.send signal target).signals
        ∧ Allowed c (signal, target)
        ∧ ∀ pid, signal = .kill → target = .group pid → kind = .force := by
  cases h with
  | signal hfuzz hpid =>
      exact .inr ⟨_, _, signals_signalFuzzer _ _ s, ⟨hfuzz, hpid, rfl⟩, fun _ _ h => by cases h⟩
  | ask hpid => exact .inr ⟨_, _, rfl, hpid, fun _ h => by cases h⟩
  | force hpid => exact .inr ⟨_, _, rfl, hpid, fun _ _ _ => rfl⟩
  | noteAlive => exact .inl (Processes.signals_noteAlive _ s)
  | collect => exact .inl (signals_collect _ s)
  | mark => exact .inl rfl
  | clearRunning => exact .inl rfl
  | record => exact .inl rfl
  | reap => exact .inl rfl
  | removeReady => exact .inl rfl
  | removePidFile => exact .inl rfl

theorem CleanupAction.allowed {kind : CleanupKind} (h : CleanupAction c kind f) {s : Stopping}
    (hs : ∀ e ∈ s.signals, Allowed c e) : ∀ e ∈ (f s).signals, Allowed c e := by
  rcases h.signals s with heq | ⟨signal, target, heq, hnew, -⟩
  · rw [heq]
    exact hs
  · rw [heq]
    exact allowed_send hs hnew

theorem CleanupAction.inOrder {kind : CleanupKind} (h : CleanupAction c kind f)
    (hkind : kind ≠ .force) {s : Stopping} (hs : InOrder s) : InOrder (f s) := by
  unfold InOrder
  rcases h.signals s with heq | ⟨signal, target, heq, -, hforce⟩
  · rw [heq]
    exact hs
  · rw [heq]
    exact hs.send fun pid hkill htarget => absurd (hforce pid hkill htarget) hkind

end Actions

/-! ## Every group comes to its end -/

section Groups

variable {c : Shutdown} {kinds : List CleanupKind} {d : Script Stopping}

theorem quiet_meanwhile : ∀ s s', Meanwhile c s s' → Quiet s s' := fun _ _ h => h.quiet

theorem HasKinds.tame (h : HasKinds c kinds d) : TameScript d := by
  intro f hf
  obtain ⟨kind, -, haction⟩ := h f hf
  exact haction.tame

/-- A script without force keeps the order. -/
theorem keeps_inOrder (h : HasKinds c kinds d) (hforce : .force ∉ kinds) :
    Triple (Meanwhile c) InOrder d InOrder := by
  refine .keeps (stable_inOrder quiet_meanwhile) fun f hf s hs => ?_
  obtain ⟨kind, hkind, haction⟩ := h f hf
  exact haction.inOrder (fun heq => hforce (heq ▸ hkind)) hs

/-- What the groups have been told remains told. -/
theorem keeps_told (h : HasKinds c kinds d) (signal : Signal) (pids : List Nat) :
    Triple (Meanwhile c)
      (fun s => ∀ pid ∈ pids, s.alive pid = true → (signal, .group pid) ∈ s.signals) d
      fun s => ∀ pid ∈ pids, s.alive pid = true → (signal, .group pid) ∈ s.signals :=
  h.tame.keeps_allTold quiet_meanwhile signal pids

/-- What is left of the groups is asked, and then forced. -/
theorem endGroups_spec (pids : List Nat) :
    Triple (Meanwhile c) InOrder (Shutdown.endGroups pids) fun s =>
      InOrder s ∧ ∀ pid ∈ pids, Forced pid s := by
  have horder : Stable (Meanwhile c) InOrder := stable_inOrder quiet_meanwhile
  have hasked := horder.and (stable_allTold quiet_meanwhile .term pids)
  have hforced := horder.and (stable_allTold quiet_meanwhile .kill pids)
  have hwait : ∀ rounds, HasKinds c [.plain] (waitForGroups rounds pids) :=
    fun rounds => hasKinds_waitForGroups rounds pids
  refine .seq horder hforced (keeps_inOrder (hwait 100) (by simp)) ?_
  refine .seq horder hforced (askEach quiet_meanwhile tameScript_askIfAlive
    (askIfAlive_spec quiet_meanwhile)) ?_
  refine .seq hasked hforced (.and (keeps_inOrder (hwait 20) (by simp))
    (keeps_told (hwait 20) .term _)) ?_
  exact forceEach quiet_meanwhile tameScript_forceIfAlive (forceIfAlive_spec quiet_meanwhile)

theorem stopChildren_spec :
    Triple (Meanwhile c) InOrder c.stopChildren fun s =>
      InOrder s ∧ ∀ pid ∈ c.childPids, Forced pid s := by
  have horder : Stable (Meanwhile c) InOrder := stable_inOrder quiet_meanwhile
  have hforced := horder.and (stable_allTold quiet_meanwhile .kill c.childPids)
  unfold Shutdown.stopChildren
  split
  · next hnil =>
      refine Triple.weaken (.skip horder) (fun _ hs => hs) fun s hs => ⟨hs, ?_⟩
      rw [hnil]
      exact List.forall_mem_nil _
  · exact .seq horder hforced (endGroups_spec c.childPids)
      (.and (keeps_inOrder hasKinds_records (by simp)) (keeps_told hasKinds_records .kill _))

theorem endBackend_spec (pid : Nat) :
    Triple (Meanwhile c) (fun s => InOrder s ∧ Asked pid s) (Shutdown.endBackend pid) fun s =>
      InOrder s ∧ Forced pid s := by
  have horder : Stable (Meanwhile c) InOrder := stable_inOrder quiet_meanwhile
  refine .seq (horder.and (stable_asked quiet_meanwhile pid))
    (horder.and (stable_forced quiet_meanwhile pid)) (forceIfAlive_spec quiet_meanwhile pid) ?_
  exact .and (keeps_inOrder (hasKinds_waitFor pid) (by simp))
    ((tameScript_waitFor pid).keeps_told quiet_meanwhile .kill pid)

theorem stopBackend_spec :
    Triple (Meanwhile c) (fun s => InOrder s ∧ ∀ pid ∈ c.backendPids, Asked pid s) c.stopBackend
      fun s => InOrder s ∧ ∀ pid ∈ c.backendPids, Forced pid s := by
  have horder : Stable (Meanwhile c) InOrder := stable_inOrder quiet_meanwhile
  have hasked := horder.and (stable_allTold quiet_meanwhile .term c.backendPids)
  have hforced := horder.and (stable_allTold quiet_meanwhile .kill c.backendPids)
  have hwait : HasKinds c [.plain] (waitForGroups 50 c.backendPids) :=
    hasKinds_waitForGroups 50 c.backendPids
  unfold Shutdown.stopBackend
  split
  · next hnil =>
      refine Triple.weaken (.skip hasked) (fun _ hs => hs) fun s hs => ⟨hs.1, ?_⟩
      rw [hnil]
      exact List.forall_mem_nil _
  · refine .seq hasked hforced (.and (keeps_inOrder hwait (by simp)) (keeps_told hwait .term _)) ?_
    refine forceEach quiet_meanwhile (fun pid f hf => ?_) endBackend_spec
    rcases hf with hf | hf
    · exact tameScript_forceIfAlive pid f hf
    · exact tameScript_waitFor pid f hf

theorem cleanup_spec :
    Triple (Meanwhile c) InOrder c.cleanup fun s => InOrder s
      ∧ ∀ pid ∈ c.childPids ++ c.backendPids, Forced pid s := by
  have horder : Stable (Meanwhile c) InOrder := stable_inOrder quiet_meanwhile
  have hchildren : Stable (Meanwhile c) fun s => ∀ pid ∈ c.childPids, Forced pid s :=
    stable_allTold quiet_meanwhile .kill c.childPids
  have hbackends : Stable (Meanwhile c) fun s => ∀ pid ∈ c.backendPids, Forced pid s :=
    stable_allTold quiet_meanwhile .kill c.backendPids
  have hasked : Stable (Meanwhile c) fun s => ∀ pid ∈ c.backendPids, Asked pid s :=
    stable_allTold quiet_meanwhile .term c.backendPids
  have hsplit : ∀ s : Stopping, (InOrder s ∧ ∀ pid ∈ c.backendPids, Forced pid s)
      ∧ (∀ pid ∈ c.childPids, Forced pid s) →
      InOrder s ∧ ∀ pid ∈ c.childPids ++ c.backendPids, Forced pid s :=
    fun s hs => ⟨hs.1.1, fun pid hpid => (List.mem_append.mp hpid).elim (hs.2 pid) (hs.1.2 pid)⟩
  have hall := (horder.and hbackends).and hchildren
  refine Triple.weaken ?_ (fun _ hs => hs) hsplit
  refine .seq horder hall (keeps_inOrder hasKinds_askAll (by simp)) ?_
  refine .seq horder hall stopChildren_spec ?_
  refine .seq (horder.and hchildren) hall (.and (askEach quiet_meanwhile tameScript_ask
    (ask_spec quiet_meanwhile)) (keeps_told hasKinds_askBackends .kill c.childPids)) ?_
  refine .seq ((horder.and hasked).and hchildren) hall (.and stopBackend_spec
    (keeps_told hasKinds_stopBackend .kill c.childPids)) ?_
  -- only files are left to remove
  exact .and (.and (keeps_inOrder hasKinds_removeFiles (by simp))
    (keeps_told hasKinds_removeFiles .kill c.backendPids))
    (keeps_told hasKinds_removeFiles .kill c.childPids)

end Groups

/-- Whatever the children do while the campaign is stopped: in the end
each of the process groups is gone or has been forced, none was forced
before it had been asked, and nobody else got a signal. -/
theorem campaign_stop {c : Shutdown} {s t : Stopping} (hs : s.signals = [])
    (h : Exec (Meanwhile c) c.cleanup s t) :
    (∀ pid ∈ c.childPids ++ c.backendPids,
      t.alive pid = false ∨ (.kill, .group pid) ∈ t.signals)
    ∧ (∀ before after pid, t.signals = before ++ (.kill, .group pid) :: after →
      (.term, .group pid) ∈ before)
    ∧ ∀ e ∈ t.signals, Allowed c e := by
  have horder : InOrder s := by
    intro before after pid heq
    rw [hs] at heq
    cases List.append_ne_nil_of_right_ne_nil before (List.cons_ne_nil _ after) heq.symm
  obtain ⟨hinOrder, hforced⟩ := cleanup_spec s t horder h
  refine ⟨fun pid hpid => ?_, hinOrder, ?_⟩
  · cases halive : t.alive pid with
    | false => exact .inl rfl
    | true => exact .inr (hforced pid hpid halive)
  · have hallowed : Stable (Meanwhile c) fun s => ∀ e ∈ s.signals, Allowed c e := by
      intro s s' hrely hs
      rw [hrely.quiet.signals]
      exact hs
    have hnone : ∀ e ∈ s.signals, Allowed c e := hs ▸ List.forall_mem_nil _
    refine Triple.keeps hallowed (fun f hf s hs => ?_) s t hnone h
    obtain ⟨kind, -, haction⟩ := hasKinds_cleanup f hf
    exact haction.allowed hs

/-! ## One fuzzing child and a backend -/

def demoShutdown : Shutdown where
  campaign := Supervisor.demoCampaign
  supervisor := Supervisor.demoStarted
  logOutput := true
  capturePids := []
  backendPids := [300]
  backendReadyFile := Supervisor.demoCampaign.readyFile 7

/-- The fuzzing child ends as `TERM` makes it end. -/
def demoStopping (files : Text → Option Text) : Stopping where
  running := false
  phase := fun pid => .ended (if pid = 100 then 72 else 0) false
  others := fun _ => false
  signals := []
  extra := ⟨.empty, 0, files⟩

def demoStopped (files : Text → Option Text) : Stopping :=
  (demoShutdown.cleanup.run (demoStopping files)).getD (demoStopping files)

theorem campaign_stop_demo :
    (∀ pid ∈ demoShutdown.childPids ++ demoShutdown.backendPids,
      (demoStopped fun _ => none).alive pid = false
        ∨ (.kill, .group pid) ∈ (demoStopped fun _ => none).signals)
    ∧ (∀ before after pid,
      (demoStopped fun _ => none).signals = before ++ (.kill, .group pid) :: after →
        (.term, .group pid) ∈ before)
    ∧ ∀ e ∈ (demoStopped fun _ => none).signals, Allowed demoShutdown e :=
  campaign_stop (s := demoStopping fun _ => none) rfl (exec_of_run rfl)

end LighttpdFuzz

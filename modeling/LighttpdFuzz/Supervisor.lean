import LighttpdFuzz.AssocMap
import LighttpdFuzz.PyText
import LighttpdFuzz.SparseArray

/-!
# The supervisor of a campaign

`run.sh` launches a server for each selected configuration and then polls
its children: one that has exited is taken out of the tables and launched
again, unless it has been restarted too often or cannot be launched; then
the lock of its configuration is released.

The state has the variables of the script, the descriptors on which the
process holds a lock, and a history of launches and of configurations
that were given up. What the system decides (whether a child lives, what
the clock says, whether a step of a launch succeeds) comes with each
visit of the loop.
-/

namespace LighttpdFuzz

/-- What does not change during a campaign. -/
structure Campaign where
  directory : Text
  campaignId : Text
  /-- How many configurations `discover_configs` has found. -/
  configCount : Nat
  /-- Whether `$FUZZ` is set. -/
  fuzz : Bool

/-- `CONFIG_IDS`; `discover_configs` checks that they are contiguous. -/
def Campaign.configIds (campaign : Campaign) : List Nat := List.range' 1 campaign.configCount

/-- What `selected_configs` can be: everything, or one valid
configuration. -/
inductive Campaign.Selects (campaign : Campaign) : List Nat → Prop
  | all : campaign.Selects campaign.configIds
  | one {config : Nat} : config ∈ campaign.configIds → campaign.Selects [config]

/-- `sanitizer_prefix` of a launch. -/
def Campaign.sanitizerPrefix (campaign : Campaign) (config launchNumber : Nat) : Text :=
  campaign.directory ++ "/logs/asan".toList ++ Text.ofNat config ++ ".log.".toList
    ++ campaign.campaignId ++ "-".toList ++ Text.ofNat launchNumber

/-- `pid_file` of a configuration. -/
def Campaign.pidFile (campaign : Campaign) (config : Nat) : Text :=
  campaign.directory ++ "/run/run_".toList ++ Text.ofNat config ++ "/run.pid".toList

inductive StopSignal where
  | term | kill
  deriving DecidableEq, Repr

/-- What the supervisor did. -/
inductive SupervisorEvent where
  | launched (config pid : Nat) (sanitizerPrefix : Text)
  | gaveUp (config : Nat)
  deriving DecidableEq, Repr

/-- The variables of the script, and what the process has locked. -/
structure Supervisor where
  fuzzerPids : SparseArray Nat
  fuzzerConfigs : AssocMap Nat Nat
  serverPidFiles : AssocMap Nat Text
  fuzzerStartedAt : AssocMap Nat Int
  fuzzerStopSignals : AssocMap Nat StopSignal
  fuzzerSanitizerPrefixes : AssocMap Nat Text
  launchCounts : AssocMap Nat Nat
  rapidRestartCounts : AssocMap Nat Nat
  configLockFds : AssocMap Nat Nat
  /-- The open descriptors that hold a lock, and the configuration each
  one locks. -/
  heldLocks : AssocMap Nat Nat
  history : List SupervisorEvent

def Supervisor.init : Supervisor where
  fuzzerPids := .empty
  fuzzerConfigs := .empty
  serverPidFiles := .empty
  fuzzerStartedAt := .empty
  fuzzerStopSignals := .empty
  fuzzerSanitizerPrefixes := .empty
  launchCounts := .empty
  rapidRestartCounts := .empty
  configLockFds := .empty
  heldLocks := .empty
  history := []

/-! ## Locks -/

/-- What the system decides about an attempt to launch. -/
structure LaunchAttempt where
  /-- Whether the binary and the configuration files are there. -/
  staged : Bool
  /-- The descriptor that opening the lock file gives. -/
  lockFd : Nat
  /-- Whether no other process holds the lock. -/
  lockFree : Bool
  /-- Whether `stop_previous` succeeds. -/
  previousStopped : Bool
  /-- Whether both archiving functions succeed. -/
  archived : Bool
  /-- The process id of the child. -/
  pid : Nat
  startedAt : Int
  /-- Whether the binary has `-handle_term=1`. -/
  handlesTerm : Bool

namespace Supervisor

/-- `acquire_config_lock` -/
def acquireConfigLock (s : Supervisor) (config : Nat) (attempt : LaunchAttempt) :
    Supervisor × Bool :=
  match s.configLockFds.get config with
  | some _ => (s, true)
  | none =>
      if attempt.lockFree then
        ({ s with
          heldLocks := s.heldLocks.set attempt.lockFd config
          configLockFds := s.configLockFds.set config attempt.lockFd }, true)
      else (s, false)

/-- `release_config_lock` -/
def releaseConfigLock (s : Supervisor) (config : Nat) : Supervisor :=
  match s.configLockFds.get config with
  | none => s
  | some lockFd =>
      { s with
        heldLocks := s.heldLocks.erase lockFd
        configLockFds := s.configLockFds.erase config }

/-! ## Launching -/

inductive LaunchKind where
  | initial | restart
  deriving DecidableEq, Repr

/-- The rest of `run_fuzzer`, once nothing can fail any more. -/
def launch (campaign : Campaign) (s : Supervisor) (config : Nat) (attempt : LaunchAttempt) :
    Supervisor :=
  let launchNumber := (s.launchCounts.get config).getD 0 + 1
  let sanitizerPrefix := campaign.sanitizerPrefix config launchNumber
  let pid := attempt.pid
  { s with
    launchCounts := s.launchCounts.set config launchNumber
    fuzzerPids := s.fuzzerPids.push pid
    fuzzerConfigs := s.fuzzerConfigs.set pid config
    serverPidFiles := s.serverPidFiles.set pid (campaign.pidFile config)
    fuzzerStartedAt := s.fuzzerStartedAt.set pid attempt.startedAt
    fuzzerSanitizerPrefixes := s.fuzzerSanitizerPrefixes.set pid sanitizerPrefix
    fuzzerStopSignals := s.fuzzerStopSignals.set pid
      (if campaign.fuzz && attempt.handlesTerm then .term else .kill)
    history := s.history ++ [.launched config pid sanitizerPrefix] }

/-- `run_fuzzer`, and whether it succeeds. -/
def runFuzzer (campaign : Campaign) (s : Supervisor) (config : Nat) (kind : LaunchKind)
    (attempt : LaunchAttempt) : Supervisor × Bool :=
  if config ∉ campaign.configIds then (s, false)
  else if ¬ attempt.staged then (s, false)
  else
    match s.acquireConfigLock config attempt with
    | (s, false) => (s, false)
    | (s, true) =>
        if ¬ attempt.previousStopped then (s, false)
        else if kind = .initial ∧ ¬ attempt.archived then (s, false)
        else (launch campaign s config attempt, true)

/-! ## The monitoring loop -/

/-- What the system decides when the loop visits a child. -/
structure ChildVisit where
  /-- Whether `kill -0` succeeds. -/
  alive : Bool
  now : Int
  attempt : LaunchAttempt

/-- How the script ends. -/
inductive SupervisorExit where
  /-- An unset variable was used, under `set -u`. -/
  | unboundVariable
  | noFuzzingProfilesRemain
  deriving DecidableEq, Repr

/-- Take a child out of the tables. -/
def forget (s : Supervisor) (index pid : Nat) : Supervisor :=
  { s with
    fuzzerPids := s.fuzzerPids.unset index
    fuzzerConfigs := s.fuzzerConfigs.erase pid
    serverPidFiles := s.serverPidFiles.erase pid
    fuzzerStartedAt := s.fuzzerStartedAt.erase pid
    fuzzerStopSignals := s.fuzzerStopSignals.erase pid
    fuzzerSanitizerPrefixes := s.fuzzerSanitizerPrefixes.erase pid }

/-- Release the lock of a configuration that is not launched again. -/
def giveUp (s : Supervisor) (config : Nat) : Supervisor :=
  { s.releaseConfigLock config with history := s.history ++ [.gaveUp config] }

/-- The restart of a child that ran for `runtime` seconds. -/
def restart (campaign : Campaign) (s : Supervisor) (config : Nat) (runtime : Int)
    (attempt : LaunchAttempt) : Supervisor :=
  let restartCount := (s.rapidRestartCounts.get config).getD 0
  let restartCount := (if runtime ≥ 60 then 0 else restartCount) + 1
  let s := { s with rapidRestartCounts := s.rapidRestartCounts.set config restartCount }
  if restartCount ≤ 5 then
    match runFuzzer campaign s config .restart attempt with
    | (s, true) => s
    | (s, false) => giveUp s config
  else giveUp s config

/-- The body of the loop over `"${!fuzzer_pids[@]}"`. -/
def visit (campaign : Campaign) (s : Supervisor) (index : Nat) (e : ChildVisit) :
    Except SupervisorExit Supervisor :=
  match s.fuzzerPids.get index with
  | none => .error .unboundVariable
  | some pid =>
      if e.alive then .ok s
      else
        match s.fuzzerConfigs.get pid, s.serverPidFiles.get pid, s.fuzzerStartedAt.get pid with
        | some config, some _, some startedAt =>
            .ok (restart campaign (s.forget index pid) config (e.now - startedAt) e.attempt)
        | _, _, _ => .error .unboundVariable

/-! ## Runs -/

/-- The new child has a process id that no listed child has, and a file
that is opened has a descriptor that is not in use. -/
def Fresh (s : Supervisor) (attempt : LaunchAttempt) : Prop :=
  attempt.pid ∉ s.fuzzerPids.values ∧ s.heldLocks.get attempt.lockFd = none

/-- The loop `run_fuzzer "$build_config" || exit`, run to its end. -/
inductive Launches (campaign : Campaign) : List Nat → Supervisor → Supervisor → Prop
  | nil {s : Supervisor} : Launches campaign [] s s
  | cons {config : Nat} {configs : List Nat} {s s' s'' : Supervisor} {attempt : LaunchAttempt} :
      Fresh s attempt → runFuzzer campaign s config .initial attempt = (s', true) →
      Launches campaign configs s' s'' → Launches campaign (config :: configs) s s''

/-- A poll of the children at `indices`, and whether the script ends in
it. -/
inductive Polls (campaign : Campaign) :
    List Nat → Supervisor → Supervisor → Option SupervisorExit → Prop
  | remain {s : Supervisor} : s.fuzzerPids.values ≠ [] → Polls campaign [] s s none
  | noneRemain {s : Supervisor} : s.fuzzerPids.values = [] →
      Polls campaign [] s s (some .noFuzzingProfilesRemain)
  | visit {index : Nat} {indices : List Nat} {s s' s'' : Supervisor}
      {exit : Option SupervisorExit} {e : ChildVisit} :
      (∀ pid, s.fuzzerPids.get index = some pid → e.alive = false →
        Fresh (s.forget index pid) e.attempt) →
      visit campaign s index e = .ok s' → Polls campaign indices s' s'' exit →
      Polls campaign (index :: indices) s s'' exit
  | fail {index : Nat} {indices : List Nat} {s : Supervisor} {exit : SupervisorExit}
      {e : ChildVisit} :
      visit campaign s index e = .error exit →
      Polls campaign (index :: indices) s s (some exit)

/-- The states at the head of the monitoring loop. -/
inductive LoopHead (campaign : Campaign) (selected : List Nat) : Supervisor → Prop
  | start {s : Supervisor} : Launches campaign selected .init s → LoopHead campaign selected s
  | poll {s s' : Supervisor} : LoopHead campaign selected s →
      Polls campaign s.fuzzerPids.indices s s' none → LoopHead campaign selected s'

end Supervisor

end LighttpdFuzz

import LighttpdFuzz.FileLocks
import LighttpdFuzz.Supervisor
import LighttpdFuzz.Transition

/-!
# Builds and campaigns

Any number of `run.sh` and `build.sh` processes, the servers that
supervisors launch and the commands that builds run, all of them acting
one step at a time in any order. What they share are the lock files of
the configurations: `run.sh` takes the lock of a configuration before it
launches a server and gives it back when it gives the configuration up;
`build_software` takes it before it touches a file.

Only what concerns locks and processes is followed. Everything else is
open: any test or command can succeed or fail, any process can be
interrupted or killed at any moment, and `refuse_active_instances` finds
an active server or not.

A number names one `run.sh` or `build.sh` for good. The number of another
process can come again after its end.
-/

namespace LighttpdFuzz.Profiles

open Supervisor (LaunchKind)

/-- The locks and descriptors of all processes. -/
abbrev Kernel := FileLocks.Kernel Nat Nat

/-! ## `run.sh` -/

/-- How far `run_fuzzer` has come. -/
inductive LaunchPoint where
  | entered
  /-- The binary and the configuration files are there. -/
  | staged
  /-- `acquire_config_lock` has opened the lock file. -/
  | opened (description : Nat)
  | locked
  /-- `stop_previous` and the archiving functions have succeeded. -/
  | ready
  /-- The child runs and is not yet in the tables. -/
  | forked (pid : Nat)
  deriving DecidableEq, Repr

inductive RunPhase where
  /-- Between two launches of the loop over `selected_configs`. -/
  | starting
  /-- In the loop that polls the children. -/
  | monitoring
  | launching (config : Nat) (kind : LaunchKind) (point : LaunchPoint)
  /-- At the beginning of `release_config_lock`. -/
  | releasing (config : Nat)
  /-- Between `flock -u` and the closing of the descriptor. -/
  | unlocked (config description : Nat)
  /-- In `cleanup`. -/
  | cleaning
  | ended
  deriving DecidableEq, Repr

/-- A `run.sh` process. -/
structure RunProcess where
  /-- The rest of `selected_configs`. -/
  selectedConfigs : List Nat
  phase : RunPhase
  /-- The description that the descriptor in `config_lock_fds` refers
  to. -/
  configLockFds : Nat → Option Nat
  /-- The configurations of the children in `fuzzer_pids`. -/
  fuzzerConfigs : Nat → Option Nat

namespace RunProcess

def start (selectedConfigs : List Nat) : RunProcess where
  selectedConfigs := selectedConfigs
  phase := .starting
  configLockFds := fun _ => none
  fuzzerConfigs := fun _ => none

/-- Whether the script still follows its tables. -/
def Active (run : RunProcess) : Prop := run.phase ≠ .cleaning ∧ run.phase ≠ .ended

/-- Where a failed `run_fuzzer` leads. -/
def afterFailure (config : Nat) : LaunchKind → RunPhase
  | .initial => .cleaning
  | .restart => .releasing config

/-- Where a successful `run_fuzzer` leads. -/
def afterLaunch : LaunchKind → RunPhase
  | .initial => .starting
  | .restart => .monitoring

end RunProcess

/-- The steps of the `run.sh` process `self`, apart from those that begin
another process. `alive` is what `kill -0` tells. -/
inductive RunStep (self : Nat) (alive : Nat → Prop) (kernel : Kernel)
    (run : RunProcess) : Kernel → RunProcess → Prop
  | next {config : Nat} {rest : List Nat} :
      run.phase = .starting → run.selectedConfigs = config :: rest →
      RunStep self alive kernel run kernel
        { run with selectedConfigs := rest, phase := .launching config .initial .entered }
  | started :
      run.phase = .starting → run.selectedConfigs = [] →
      RunStep self alive kernel run kernel { run with phase := .monitoring }
  | staged {config : Nat} {kind : LaunchKind} :
      run.phase = .launching config kind .entered →
      RunStep self alive kernel run kernel
        { run with phase := .launching config kind .staged }
  | notStaged {config : Nat} {kind : LaunchKind} :
      run.phase = .launching config kind .entered →
      RunStep self alive kernel run kernel
        { run with phase := RunProcess.afterFailure config kind }
  | alreadyLocked {config description : Nat} {kind : LaunchKind} :
      run.phase = .launching config kind .staged →
      run.configLockFds config = some description →
      RunStep self alive kernel run kernel
        { run with phase := .launching config kind .locked }
  | openLock {config description : Nat} {kind : LaunchKind} :
      run.phase = .launching config kind .staged → run.configLockFds config = none →
      kernel.Unused description →
      RunStep self alive kernel run (kernel.openFile self description config)
        { run with phase := .launching config kind (.opened description) }
  | lockTaken {config description : Nat} {kind : LaunchKind} :
      run.phase = .launching config kind (.opened description) → kernel.Free description →
      RunStep self alive kernel run (kernel.lock description)
        { run with
          phase := .launching config kind .locked
          configLockFds := Function.update run.configLockFds config (some description) }
  | lockRefused {config description : Nat} {kind : LaunchKind} :
      run.phase = .launching config kind (.opened description) → ¬ kernel.Free description →
      RunStep self alive kernel run (kernel.close self description)
        { run with phase := RunProcess.afterFailure config kind }
  | prepared {config : Nat} {kind : LaunchKind} :
      run.phase = .launching config kind .locked →
      RunStep self alive kernel run kernel
        { run with phase := .launching config kind .ready }
  | notPrepared {config : Nat} {kind : LaunchKind} :
      run.phase = .launching config kind .locked →
      RunStep self alive kernel run kernel
        { run with phase := RunProcess.afterFailure config kind }
  | recorded {config pid : Nat} {kind : LaunchKind} :
      run.phase = .launching config kind (.forked pid) →
      RunStep self alive kernel run kernel
        { run with
          phase := RunProcess.afterLaunch kind
          fuzzerConfigs := Function.update run.fuzzerConfigs pid (some config) }
  /-- A child has exited and is launched again, or there have been too
  many rapid restarts. -/
  | noticed {config pid : Nat} {phase : RunPhase} :
      run.phase = .monitoring → run.fuzzerConfigs pid = some config → ¬ alive pid →
      phase = .launching config .restart .entered ∨ phase = .releasing config →
      RunStep self alive kernel run kernel
        { run with
          phase := phase
          fuzzerConfigs := Function.update run.fuzzerConfigs pid none }
  | nothingToRelease {config : Nat} :
      run.phase = .releasing config → run.configLockFds config = none →
      RunStep self alive kernel run kernel { run with phase := .monitoring }
  | unlock {config description : Nat} :
      run.phase = .releasing config → run.configLockFds config = some description →
      RunStep self alive kernel run (kernel.unlock description)
        { run with phase := .unlocked config description }
  | closeLock {config description : Nat} :
      run.phase = .unlocked config description →
      RunStep self alive kernel run (kernel.close self description)
        { run with
          phase := .monitoring
          configLockFds := Function.update run.configLockFds config none }
  /-- An `exit` or a signal. -/
  | stopped :
      run.Active → RunStep self alive kernel run kernel { run with phase := .cleaning }
  /-- The end of `cleanup`, or an outright kill at any moment. -/
  | ended :
      RunStep self alive kernel run (kernel.closeAll self) { run with phase := .ended }

/-! ## `build.sh` -/

/-- The commands of `build_software` and `stage_runtime` that change
`run_N`, `build_N` or `src_N`. -/
inductive BuildCommand where
  | removeDirectories | createDirectories | unpackSource | applyPatches | copyFuzzer
  | autogen | configure | make | makeInstall
  | removeRuntime | createRuntime | copyDocroot | linkStatic | copyUsers
  | renderCommon | renderVariant | includeVariant | testConfiguration
  deriving DecidableEq, Repr

structure BuildOptions where
  rebuildDirectory : Bool
  buildDirectory : Bool
  patch : Bool
  deriving DecidableEq, Repr

def stageRuntime : List BuildCommand :=
  [.removeRuntime, .createRuntime, .copyDocroot, .linkStatic, .copyUsers, .renderCommon,
    .renderVariant, .includeVariant, .testConfiguration]

/-- What `build_software` does while it has the lock. -/
def buildSoftware (options : BuildOptions) : List BuildCommand :=
  if options.rebuildDirectory then stageRuntime
  else
    [.removeDirectories, .createDirectories, .unpackSource]
      ++ (if options.patch then [.applyPatches] else [])
      ++ [.copyFuzzer, .autogen, .configure, .make, .makeInstall]
      ++ (if options.buildDirectory then stageRuntime else [])

inductive BuildPhase where
  | started
  /-- `refuse_active_instances` has found nothing. -/
  | checked
  | opened (description : Nat)
  /-- The lock is taken; these commands are left, the first one may have
  begun. -/
  | working (description : Nat) (commands : List BuildCommand)
  /-- The process `worker` runs the first command. -/
  | waiting (description : Nat) (commands : List BuildCommand) (worker : Nat)
  | ended
  deriving DecidableEq, Repr

/-- A `build.sh` process for one configuration. -/
structure BuildProcess where
  config : Nat
  options : BuildOptions
  phase : BuildPhase

/-- The steps of the `build.sh` process `self`, apart from its commands. -/
inductive BuildStep (self : Nat) (alive : Nat → Prop) (kernel : Kernel)
    (build : BuildProcess) : Kernel → BuildProcess → Prop
  | checked :
      build.phase = .started →
      BuildStep self alive kernel build kernel { build with phase := .checked }
  | openLock {description : Nat} :
      build.phase = .checked → kernel.Unused description →
      BuildStep self alive kernel build (kernel.openFile self description build.config)
        { build with phase := .opened description }
  | lockTaken {description : Nat} :
      build.phase = .opened description → kernel.Free description →
      BuildStep self alive kernel build (kernel.lock description)
        { build with phase := .working description (buildSoftware build.options) }
  | commandEnded {description worker : Nat} {command : BuildCommand}
      {rest : List BuildCommand} :
      build.phase = .waiting description (command :: rest) worker → ¬ alive worker →
      BuildStep self alive kernel build kernel
        { build with phase := .working description rest }
  /-- A command of the shell itself. -/
  | builtinEnded {description : Nat} {command : BuildCommand} {rest : List BuildCommand} :
      build.phase = .working description (command :: rest) →
      BuildStep self alive kernel build kernel
        { build with phase := .working description rest }
  /-- The script is done, refuses to work, fails or is killed. -/
  | ended :
      BuildStep self alive kernel build (kernel.closeAll self) { build with phase := .ended }

/-! ## The system -/

inductive Process where
  | run (run : RunProcess)
  | build (build : BuildProcess)
  /-- A lighttpd that `supervisor` has launched. -/
  | child (supervisor config : Nat)
  /-- A process that executes a command for `builder`. -/
  | worker (builder config : Nat) (command : BuildCommand)
  /-- Any other process that a modelled process has begun. -/
  | helper

def Process.Alive : Process → Prop
  | .run r => r.phase ≠ .ended
  | .build b => b.phase ≠ .ended
  | .child _ _ | .worker _ _ _ | .helper => True

/-- Whether the number of a process is free after its end. -/
def Process.Anonymous : Process → Prop
  | .run _ | .build _ => False
  | .child _ _ | .worker _ _ _ | .helper => True

/-- Processes and their open lock files; the lock file of a configuration
is named by the configuration. -/
structure World where
  kernel : Kernel
  processes : Nat → Option Process

namespace World

def set (w : World) (p : Nat) (kernel : Kernel) (process : Option Process) : World where
  kernel := kernel
  processes := Function.update w.processes p process

def Alive (w : World) (p : Nat) : Prop := ∃ process, w.processes p = some process ∧ process.Alive

/-- A server that some supervisor has launched for `config` is alive. -/
def Serving (w : World) (config : Nat) : Prop :=
  ∃ pid supervisor, w.processes pid = some (.child supervisor config)

def Initial (w : World) : Prop :=
  (∀ p, w.processes p = none) ∧ ∀ p, w.kernel.descriptors p = []

end World

/-- What a step does to the directories of a configuration. -/
inductive Action where
  | modify (config : Nat) (command : BuildCommand)
  | other
  deriving DecidableEq, Repr

inductive Step (w : World) : Action → World → Prop
  | startRun {p : Nat} {campaign : Campaign} {configs : List Nat} :
      w.processes p = none → campaign.Selects configs →
      Step w .other (w.set p (w.kernel.closeAll p) (some (.run (.start configs))))
  | startBuild {p config : Nat} {options : BuildOptions} :
      w.processes p = none →
      Step w .other
        (w.set p (w.kernel.closeAll p) (some (.build ⟨config, options, .started⟩)))
  | run {p : Nat} {run run' : RunProcess} {kernel' : Kernel} :
      w.processes p = some (.run run) → RunStep p w.Alive w.kernel run kernel' run' →
      Step w .other (w.set p kernel' (some (.run run')))
  /-- The supervisor `p` begins the child `pid`. -/
  | launch {p pid config : Nat} {kind : LaunchKind} {run : RunProcess} :
      w.processes p = some (.run run) → run.phase = .launching config kind .ready →
      w.processes pid = none →
      Step w .other
        ((w.set p w.kernel
          (some (.run { run with phase := .launching config kind (.forked pid) }))).set
            pid (w.kernel.fork p pid) (some (.child p config)))
  | build {p : Nat} {build build' : BuildProcess} {kernel' : Kernel} :
      w.processes p = some (.build build) →
      BuildStep p w.Alive w.kernel build kernel' build' →
      Step w .other (w.set p kernel' (some (.build build')))
  /-- The shell executes a part of its own command. -/
  | builtin {p description : Nat} {build : BuildProcess} {command : BuildCommand}
      {rest : List BuildCommand} :
      w.processes p = some (.build build) →
      build.phase = .working description (command :: rest) →
      Step w (.modify build.config command) w
  /-- The shell begins a process for its command. -/
  | command {p worker description : Nat} {build : BuildProcess} {command : BuildCommand}
      {rest : List BuildCommand} :
      w.processes p = some (.build build) →
      build.phase = .working description (command :: rest) → w.processes worker = none →
      Step w .other
        ((w.set p w.kernel
          (some (.build
            { build with phase := .waiting description (command :: rest) worker }))).set
            worker (w.kernel.fork p worker) (some (.worker p build.config command)))
  | work {p builder config : Nat} {command : BuildCommand} :
      w.processes p = some (.worker builder config command) →
      Step w (.modify config command) w
  /-- A command begins a process for a part of its work. -/
  | subcommand {p q builder config : Nat} {command : BuildCommand} :
      w.processes p = some (.worker builder config command) → w.processes q = none →
      Step w .other (w.set q (w.kernel.fork p q) (some (.worker builder config command)))
  /-- Any process begins another one that is not followed. -/
  | help {p q : Nat} :
      w.Alive p → w.processes q = none →
      Step w .other (w.set q (w.kernel.fork p q) (some .helper))
  /-- A process ends by itself, crashes or is killed. -/
  | finish {p : Nat} {process : Process} :
      w.processes p = some process → process.Anonymous →
      Step w .other (w.set p (w.kernel.closeAll p) none)

/-- Builds and campaigns of one checkout. -/
def system : TransitionSystem World Action where
  init := World.Initial
  step := Step

end LighttpdFuzz.Profiles

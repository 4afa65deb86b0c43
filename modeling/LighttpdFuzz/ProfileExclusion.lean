import LighttpdFuzz.Profiles
import LighttpdFuzz.SupervisorLoop

/-!
# No build under a running server

While a server for a configuration is alive, no build changes the
directories of the configuration and no other supervisor has a server for
it (`builds_and_campaigns_exclude`).

A server has inherited a descriptor of the lock that its supervisor took,
and so keeps the lock even if the supervisor is killed; a command of a
build has inherited the lock of the build in the same way. Only a
supervisor unlocks anything, and it does so when its tables show no child
for the configuration. The invariant says that the tables of a supervisor
that still follows them show every child that is alive, or that the
supervisor is about to record it.
-/

namespace LighttpdFuzz.Profiles

open FileLocks
open Supervisor (LaunchKind)

variable {w w' : World} {p q config description : Nat} {kernel kernel' : Kernel}
  {alive : Nat → Prop} {run run' : RunProcess} {build build' : BuildProcess}

/-! ## Supervisors -/

namespace RunProcess

/-- No child for `config` is in the tables. -/
def NoChild (run : RunProcess) (config : Nat) : Prop :=
  ∀ pid, run.fuzzerConfigs pid ≠ some config

/-- The child that has just been launched. -/
def forkedPid (run : RunProcess) : Option Nat :=
  match run.phase with
  | .launching _ _ (.forked pid) => some pid
  | _ => none

/-- The tables show the child, or are about to. -/
def Knows (run : RunProcess) (pid config : Nat) : Prop :=
  (∃ kind, run.phase = .launching config kind (.forked pid)) ∨
    run.fuzzerConfigs pid = some config ∧ run.forkedPid ≠ some pid

def PointOk (p : Nat) (kernel : Kernel) (run : RunProcess) (config : Nat) :
    LaunchPoint → Prop
  | .entered | .staged => True
  | .opened description =>
      kernel.Has p p description config ∧ run.configLockFds config = none
  | .locked | .ready | .forked _ => run.configLockFds config ≠ none

/-- What is known in a phase. -/
def PhaseOk (p : Nat) (kernel : Kernel) (run : RunProcess) : RunPhase → Prop
  | .launching config _ point =>
      run.NoChild config ∧ config ∉ run.selectedConfigs ∧ run.PointOk p kernel config point
  | .releasing config => run.NoChild config
  | .unlocked config description =>
      run.NoChild config ∧ run.configLockFds config = some description
  | .starting | .monitoring | .cleaning | .ended => True

/-- What a supervisor that follows its tables knows. -/
structure Ok (p : Nat) (kernel : Kernel) (run : RunProcess) : Prop where
  has : ∀ {config description}, run.configLockFds config = some description →
    kernel.Has p p description config
  locked : ∀ {config description}, run.configLockFds config = some description →
    run.phase ≠ .unlocked config description → kernel.locked description = true
  child_unique : ∀ {pid pid' config}, run.fuzzerConfigs pid = some config →
    run.fuzzerConfigs pid' = some config → pid = pid'
  selected : ∀ config ∈ run.selectedConfigs, run.NoChild config
  nodup : run.selectedConfigs.Nodup
  phase : run.PhaseOk p kernel run.phase

theorem start_ok (p : Nat) (kernel : Kernel) {configs : List Nat}
    (h : configs.Nodup) : (start configs).Ok p kernel where
  has := nofun
  locked := nofun
  child_unique := nofun
  selected := fun _ _ _ => nofun
  nodup := h
  phase := trivial

theorem Active.of_phase {phase : RunPhase} (h : run.phase = phase)
    (hc : phase ≠ .cleaning) (he : phase ≠ .ended) : run.Active :=
  ⟨h ▸ hc, h ▸ he⟩

/-- A step that changes nothing but the phase. -/
theorem Ok.setPhase (h : run.Ok p kernel) {phase phase' : RunPhase} (hold : run.phase = phase)
    (hphase : ∀ config description, phase ≠ .unlocked config description)
    (hnew : run.PhaseOk p kernel phase') :
    ({ run with phase := phase' } : RunProcess).Ok p kernel where
  has := h.has
  locked := fun hfd _ => h.locked hfd (hold ▸ hphase _ _)
  child_unique := h.child_unique
  selected := h.selected
  nodup := h.nodup
  phase := by
    cases phase' with
    | launching config kind point => cases point <;> exact hnew
    | _ => exact hnew

theorem PhaseOk.afterFailure {kind : LaunchKind} (h : run.NoChild config) :
    run.PhaseOk p kernel (RunProcess.afterFailure config kind) := by
  cases kind with
  | initial => trivial
  | restart => exact h

theorem PhaseOk.afterLaunch (kind : LaunchKind) :
    run.PhaseOk p kernel (RunProcess.afterLaunch kind) := by
  cases kind <;> trivial

/-- The kernel changes; what the supervisor itself has stays. -/
theorem Ok.setKernel (h : run.Ok p kernel)
    (hhas : ∀ {description config}, kernel.Has p p description config →
      kernel'.Has p p description config)
    (hlocked : ∀ {description config}, kernel.Has p p description config →
      kernel.locked description = true → kernel'.locked description = true) :
    run.Ok p kernel' where
  has := fun hfd => hhas (h.has hfd)
  locked := fun hfd hne => hlocked (h.has hfd) (h.locked hfd hne)
  child_unique := h.child_unique
  selected := h.selected
  nodup := h.nodup
  phase := by
    have hphase := h.phase
    unfold PhaseOk at hphase ⊢
    split at hphase <;> rename_i heq
    · refine ⟨hphase.1, hphase.2.1, ?_⟩
      have hpoint := hphase.2.2
      unfold PointOk at hpoint ⊢
      split at hpoint <;> first | exact hpoint | exact ⟨hhas hpoint.1, hpoint.2⟩
    all_goals exact hphase

theorem Ok.phase_of (h : run.Ok p kernel) {phase : RunPhase} (hphase : run.phase = phase) :
    run.PhaseOk p kernel phase :=
  hphase ▸ h.phase

/-- Descriptions for two configurations differ. -/
theorem Ok.description_ne (h : run.Ok p kernel) {config' description' : Nat}
    (hfd : run.configLockFds config' = some description')
    (hhas : kernel.Has p p description config) (hne : config' ≠ config) :
    description' ≠ description := by
  rintro rfl
  exact hne ((h.has hfd).file.symm.trans hhas.file)

theorem Ok.lockTaken (h : run.Ok p kernel) {kind : LaunchKind}
    (hphase : run.phase = .launching config kind (.opened description)) :
    RunProcess.Ok p (kernel.lock description)
      { run with
        phase := .launching config kind .locked
        configLockFds := Function.update run.configLockFds config (some description) } := by
  obtain ⟨hchild, hselected, hhas, -⟩ := h.phase_of hphase
  refine
    { has := ?_
      locked := ?_
      child_unique := h.child_unique
      selected := h.selected
      nodup := h.nodup
      phase := ⟨hchild, hselected, ?_⟩ }
  · intro config' description' hfd
    change Function.update run.configLockFds config (some description) config' = _ at hfd
    rcases eq_or_ne config' config with rfl | hc
    · rw [Function.update_self, Option.some.injEq] at hfd
      exact hfd ▸ hhas.lock description
    · rw [Function.update_of_ne hc] at hfd
      exact (h.has hfd).lock description
  · intro config' description' hfd _
    change Function.update run.configLockFds config (some description) config' = _ at hfd
    rcases eq_or_ne config' config with rfl | hc
    · rw [Function.update_self, Option.some.injEq] at hfd
      exact hfd ▸ Function.update_self _ _ _
    · rw [Function.update_of_ne hc] at hfd
      exact FileLocks.Kernel.locked_lock _ (h.locked hfd (by rw [hphase]; nofun))
  · change Function.update run.configLockFds config (some description) config ≠ none
    rw [Function.update_self]
    nofun

/-- The descriptor that is closed is the only one for `config`, or it is
not in the table. -/
theorem Ok.close (h : run.Ok p kernel) {phase : RunPhase} {fds : Nat → Option Nat}
    (hhas : kernel.Has p p description config)
    (hfds : ∀ {c o}, fds c = some o → c ≠ config ∧ run.configLockFds c = some o)
    (hold : ∀ c o, c ≠ config → run.phase ≠ .unlocked c o)
    (hphase : RunProcess.PhaseOk p (kernel.close p description)
      { run with phase := phase, configLockFds := fds } phase) :
    RunProcess.Ok p (kernel.close p description)
      { run with phase := phase, configLockFds := fds } where
  has := fun hfd =>
    have ⟨hne, hfd⟩ := hfds hfd
    (h.has hfd).close (.inr (h.description_ne hfd hhas hne))
  locked := fun hfd _ =>
    have ⟨hne, hfd⟩ := hfds hfd
    h.locked hfd (hold _ _ hne)
  child_unique := h.child_unique
  selected := h.selected
  nodup := h.nodup
  phase := hphase

theorem Ok.unlock (h : run.Ok p kernel) (hphase : run.phase = .releasing config)
    (hfd : run.configLockFds config = some description) :
    RunProcess.Ok p (kernel.unlock description)
      { run with phase := .unlocked config description } where
  has := fun hfd' => (h.has hfd').unlock description
  locked := by
    intro config' description' hfd' hne
    have hc : config' ≠ config := by
      rintro rfl
      obtain rfl := Option.some.inj (hfd.symm.trans hfd')
      exact hne rfl
    exact FileLocks.Kernel.locked_unlock (h.description_ne hfd' (h.has hfd) hc)
      (h.locked hfd' (by rw [hphase]; nofun))
  child_unique := h.child_unique
  selected := h.selected
  nodup := h.nodup
  phase := ⟨h.phase_of hphase, hfd⟩

theorem Ok.recorded (h : run.Ok p kernel) {kind : LaunchKind} {pid : Nat}
    (hphase : run.phase = .launching config kind (.forked pid)) :
    RunProcess.Ok p kernel
      { run with
        phase := RunProcess.afterLaunch kind
        fuzzerConfigs := Function.update run.fuzzerConfigs pid (some config) } := by
  obtain ⟨hchild, hselected, -⟩ := h.phase_of hphase
  refine
    { has := h.has
      locked := fun hfd _ => h.locked hfd (by rw [hphase]; nofun)
      child_unique := ?_
      selected := ?_
      nodup := h.nodup
      phase := .afterLaunch kind }
  · intro q q' config' hq hq'
    change Function.update run.fuzzerConfigs pid (some config) q = _ at hq
    change Function.update run.fuzzerConfigs pid (some config) q' = _ at hq'
    by_cases hc : config' = config
    · have honly : ∀ {x}, Function.update run.fuzzerConfigs pid (some config) x = some config' →
          x = pid := by
        intro x hx
        by_contra hne
        rw [Function.update_of_ne hne, hc] at hx
        exact hchild x hx
      rw [honly hq, honly hq']
    · have hrest : ∀ {x}, Function.update run.fuzzerConfigs pid (some config) x = some config' →
          run.fuzzerConfigs x = some config' := by
        intro x hx
        by_cases hne : x = pid
        · rw [hne, Function.update_self] at hx
          exact absurd (Option.some.inj hx).symm hc
        · rwa [Function.update_of_ne hne] at hx
      exact h.child_unique (hrest hq) (hrest hq')
  · intro c hc q
    change Function.update run.fuzzerConfigs pid (some config) q ≠ some c
    by_cases hq : q = pid
    · rw [hq, Function.update_self]
      rintro heq
      exact hselected (Option.some.inj heq ▸ hc)
    · rw [Function.update_of_ne hq]
      exact h.selected c hc q

theorem Ok.noticed (h : run.Ok p kernel) {pid : Nat} {phase : RunPhase}
    (hphase : run.phase = .monitoring) (hpid : run.fuzzerConfigs pid = some config)
    (hnext : phase = .launching config .restart .entered ∨ phase = .releasing config) :
    RunProcess.Ok p kernel
      { run with
        phase := phase
        fuzzerConfigs := Function.update run.fuzzerConfigs pid none } := by
  have hrest : ∀ {x c}, Function.update run.fuzzerConfigs pid none x = some c →
      x ≠ pid ∧ run.fuzzerConfigs x = some c := by
    intro x c hx
    by_cases hne : x = pid
    · rw [hne, Function.update_self] at hx
      cases hx
    · rw [Function.update_of_ne hne] at hx
      exact ⟨hne, hx⟩
  have hchild : ∀ x, Function.update run.fuzzerConfigs pid none x ≠ some config := by
    intro x hx
    exact (hrest hx).1 (h.child_unique (hrest hx).2 hpid)
  exact
    { has := h.has
      locked := fun hfd _ => h.locked hfd (by rw [hphase]; nofun)
      child_unique := fun hq hq' => h.child_unique (hrest hq).2 (hrest hq').2
      selected := fun c hc x hx => h.selected c hc x (hrest hx).2
      nodup := h.nodup
      phase := by
        rcases hnext with rfl | rfl
        · exact ⟨hchild, fun hmem => h.selected config hmem pid hpid, trivial⟩
        · exact hchild }

theorem Ok.of_leaves (h : run.Ok p kernel) (hleaves : kernel.Leaves kernel' q)
    (hne : p ≠ q) : run.Ok p kernel' :=
  h.setKernel (fun hhas => hleaves.has hne hhas) fun hhas => hleaves.locked hne hhas

end RunProcess

/-! ## Steps of a supervisor -/

namespace RunStep

theorem exclusive (h : RunStep p alive kernel run kernel' run') (hk : kernel.Exclusive) :
    kernel'.Exclusive := by
  cases h with
  | openLock _ _ hunused => exact hk.openFile hunused p _
  | lockTaken _ hfree => exact hk.lock hfree
  | lockRefused => exact hk.close p _
  | unlock => exact hk.unlock _
  | closeLock => exact hk.close p _
  | ended => exact hk.closeAll p
  | _ => exact hk

/-- A supervisor unlocks only what it has opened. -/
theorem leaves (h : RunStep p alive kernel run kernel' run')
    (hok : run.Active → run.Ok p kernel) : kernel.Leaves kernel' p := by
  cases h with
  | openLock _ _ hunused => exact .openFile hunused _
  | lockTaken => exact .lock kernel p _
  | lockRefused => exact .close kernel p _
  | unlock hphase hfd =>
      have hactive := RunProcess.Active.of_phase hphase nofun nofun
      exact .unlock ((hok hactive).has hfd).opener
  | closeLock => exact .close kernel p _
  | ended => exact .closeAll kernel p
  | _ => exact .refl kernel p

theorem ok (h : RunStep p alive kernel run kernel' run')
    (hok : run.Active → run.Ok p kernel) (hactive' : run'.Active) : run'.Ok p kernel' := by
  have hok := fun {phase} (hphase : run.phase = phase) hc he =>
    hok (RunProcess.Active.of_phase hphase hc he)
  cases h with
  | @next config rest hphase hselected =>
      have hok := hok hphase nofun nofun
      have hnodup := List.nodup_cons.mp (hselected ▸ hok.nodup)
      exact {
        has := hok.has
        locked := fun hfd _ => hok.locked hfd (by rw [hphase]; nofun)
        child_unique := hok.child_unique
        selected := fun c hc => hok.selected c (hselected ▸ List.mem_cons_of_mem _ hc)
        nodup := hnodup.2
        phase := ⟨hok.selected config (hselected ▸ List.mem_cons_self), hnodup.1, trivial⟩ }
  | started hphase => exact (hok hphase nofun nofun).setPhase hphase nofun trivial
  | staged hphase =>
      have hok := hok hphase nofun nofun
      obtain ⟨hchild, hselected, -⟩ := hok.phase_of hphase
      exact hok.setPhase hphase nofun ⟨hchild, hselected, trivial⟩
  | notStaged hphase =>
      have hok := hok hphase nofun nofun
      exact hok.setPhase hphase nofun (.afterFailure (hok.phase_of hphase).1)
  | alreadyLocked hphase hfd =>
      have hok := hok hphase nofun nofun
      obtain ⟨hchild, hselected, -⟩ := hok.phase_of hphase
      refine hok.setPhase hphase nofun ⟨hchild, hselected, fun hnone => ?_⟩
      cases hfd.symm.trans hnone
  | @openLock config description _ hphase hfd hunused =>
      have hok := hok hphase nofun nofun
      obtain ⟨hchild, hselected, -⟩ := hok.phase_of hphase
      have hok' : run.Ok p (kernel.openFile p description config) :=
        hok.setKernel (fun hhas => hhas.openFile hunused p config)
          fun hhas => FileLocks.Kernel.locked_openFile hunused hhas
      exact hok'.setPhase hphase nofun
          ⟨hchild, hselected, FileLocks.Kernel.has_openFile _ _ _ _, hfd⟩
  | lockTaken hphase => exact (hok hphase nofun nofun).lockTaken hphase
  | lockRefused hphase =>
      have hok := hok hphase nofun nofun
      obtain ⟨hchild, -, hhas, hfd⟩ := hok.phase_of hphase
      refine hok.close hhas (fun hfd' => ⟨?_, hfd'⟩) (fun _ _ _ => by rw [hphase]; nofun)
        (.afterFailure hchild)
      rintro rfl
      cases hfd.symm.trans hfd'
  | prepared hphase =>
      have hok := hok hphase nofun nofun
      obtain ⟨hchild, hselected, hfd⟩ := hok.phase_of hphase
      exact hok.setPhase hphase nofun ⟨hchild, hselected, hfd⟩
  | notPrepared hphase =>
      have hok := hok hphase nofun nofun
      exact hok.setPhase hphase nofun (.afterFailure (hok.phase_of hphase).1)
  | recorded hphase => exact (hok hphase nofun nofun).recorded hphase
  | noticed hphase hpid _ hnext => exact (hok hphase nofun nofun).noticed hphase hpid hnext
  | nothingToRelease hphase => exact (hok hphase nofun nofun).setPhase hphase nofun trivial
  | unlock hphase hfd => exact (hok hphase nofun nofun).unlock hphase hfd
  | @closeLock config description hphase =>
      have hok := hok hphase nofun nofun
      obtain ⟨-, hfd⟩ := hok.phase_of hphase
      refine hok.close (hok.has hfd) ?_ ?_ trivial
      · intro c o hfd'
        by_cases hc : c = config
        · rw [hc, Function.update_self] at hfd'
          cases hfd'
        · rw [Function.update_of_ne hc] at hfd'
          exact ⟨hc, hfd'⟩
      · intro c o hc heq
        cases hphase.symm.trans heq
        exact hc rfl
  | stopped => exact absurd rfl hactive'.1
  | ended => exact absurd rfl hactive'.2

/-- A child that the supervisor knows keeps its lock: what is unlocked is
for another configuration. -/
theorem child_keeps (h : RunStep p alive kernel run kernel' run')
    (hok : run.Active → run.Ok p kernel) {pid : Nat} (hne : pid ≠ p)
    (hknows : run.Active → run.Knows pid config) (hkeeps : kernel.Keeps pid p config) :
    kernel'.Keeps pid p config := by
  have hleaves := h.leaves hok
  cases h with
  | openLock _ _ hunused =>
      exact hleaves.keeps_of_locked (fun hhas => FileLocks.Kernel.locked_openFile hunused hhas)
        hne hkeeps
  | lockTaken => exact hleaves.keeps_of_locked (fun _ => FileLocks.Kernel.locked_lock _) hne hkeeps
  | @unlock config' description hphase hfd =>
      have hactive := RunProcess.Active.of_phase hphase nofun nofun
      have hchild : run.NoChild config' := (hok hactive).phase_of hphase
      have hconfig : config ≠ config' := by
        rintro rfl
        rcases hknows hactive with ⟨kind, hforked⟩ | ⟨hpid, -⟩
        · cases hphase.symm.trans hforked
        · exact hchild pid hpid
      obtain ⟨o, hhas, hlocked⟩ := hkeeps
      have ho : o ≠ description := by
        rintro rfl
        exact hconfig (hhas.file.symm.trans ((hok hactive).has hfd).file)
      exact ⟨o, hhas.unlock description, FileLocks.Kernel.locked_unlock ho hlocked⟩
  | _ => exact hleaves.keeps_of_locked (fun _ hlocked => hlocked) hne hkeeps

theorem forkedPid_eq (h : RunStep p alive kernel run kernel' run') : run'.forkedPid = none := by
  cases h with
  | @notStaged _ kind | @lockRefused _ _ kind | @notPrepared _ kind | @recorded _ _ kind =>
      cases kind <;> rfl
  | noticed _ _ _ hnext => rcases hnext with rfl | rfl <;> rfl
  | _ => rfl

/-- A child that is alive stays known. -/
theorem child_known (h : RunStep p alive kernel run kernel' run') {pid : Nat}
    (halive : alive pid) (hknows : run.Active → run.Knows pid config)
    (hactive' : run'.Active) : run'.Knows pid config := by
  refine .inr ⟨?_, by rw [h.forkedPid_eq]; nofun⟩
  have hshown : ∀ {phase}, run.phase = phase → phase ≠ .cleaning → phase ≠ .ended →
      (∀ kind, phase ≠ .launching config kind (.forked pid)) →
      run.fuzzerConfigs pid = some config ∧ run.forkedPid ≠ some pid := by
    intro phase hphase hc he hforked
    rcases hknows (RunProcess.Active.of_phase hphase hc he) with ⟨kind, heq⟩ | hpid
    · exact absurd (hphase.symm.trans heq) (hforked kind)
    · exact hpid
  cases h with
  | @recorded config' pid' kind hphase =>
      change Function.update run.fuzzerConfigs pid' (some config') pid = some config
      rcases hknows (RunProcess.Active.of_phase hphase nofun nofun) with ⟨kind', heq⟩ | ⟨hpid, hne⟩
      · cases hphase.symm.trans heq
        exact Function.update_self _ _ _
      · have hpid' : pid ≠ pid' := by
          rintro rfl
          exact hne (by unfold RunProcess.forkedPid; rw [hphase])
        rwa [Function.update_of_ne hpid']
  | @noticed _ pid' _ hphase _ hdead =>
      change Function.update run.fuzzerConfigs pid' none pid = some config
      have hpid' : pid ≠ pid' := by
        rintro rfl
        exact hdead halive
      rw [Function.update_of_ne hpid']
      exact (hshown hphase nofun nofun nofun).1
  | stopped => exact absurd rfl hactive'.1
  | ended => exact absurd rfl hactive'.2
  | next hphase | started hphase | staged hphase | notStaged hphase | alreadyLocked hphase
  | openLock hphase | lockTaken hphase | lockRefused hphase | prepared hphase
  | notPrepared hphase | nothingToRelease hphase | unlock hphase | closeLock hphase =>
      exact (hshown hphase nofun nofun nofun).1

end RunStep

/-! ## Steps of a build -/

/-- A build that has come to its commands has the lock. -/
def BuildProcess.PhaseOk (p : Nat) (kernel : Kernel) (config : Nat) : BuildPhase → Prop
  | .started | .checked | .ended => True
  | .opened description => kernel.Has p p description config
  | .working description _ | .waiting description _ _ =>
      kernel.Has p p description config ∧ kernel.locked description = true

def BuildProcess.Ok (p : Nat) (kernel : Kernel) (build : BuildProcess) : Prop :=
  BuildProcess.PhaseOk p kernel build.config build.phase

theorem BuildProcess.Ok.phase_of (h : build.Ok p kernel) {phase : BuildPhase}
    (hphase : build.phase = phase) : BuildProcess.PhaseOk p kernel build.config phase :=
  hphase ▸ h

theorem BuildProcess.Ok.of_leaves (h : build.Ok p kernel) (hleaves : kernel.Leaves kernel' q)
    (hne : p ≠ q) : build.Ok p kernel' := by
  unfold BuildProcess.Ok BuildProcess.PhaseOk at h ⊢
  split at h
  · trivial
  · trivial
  · trivial
  · exact hleaves.has hne h
  · exact ⟨hleaves.has hne h.1, hleaves.locked hne h.1 h.2⟩
  · exact ⟨hleaves.has hne h.1, hleaves.locked hne h.1 h.2⟩

namespace BuildStep

theorem exclusive (h : BuildStep p alive kernel build kernel' build') (hk : kernel.Exclusive) :
    kernel'.Exclusive := by
  cases h with
  | openLock _ hunused => exact hk.openFile hunused p _
  | lockTaken _ hfree => exact hk.lock hfree
  | ended => exact hk.closeAll p
  | _ => exact hk

theorem leaves (h : BuildStep p alive kernel build kernel' build') : kernel.Leaves kernel' p := by
  cases h with
  | openLock _ hunused => exact .openFile hunused _
  | lockTaken => exact .lock kernel p _
  | ended => exact .closeAll kernel p
  | _ => exact .refl kernel p

theorem ok (h : BuildStep p alive kernel build kernel' build') (hok : build.Ok p kernel) :
    build'.Ok p kernel' := by
  cases h with
  | checked => trivial
  | openLock => exact FileLocks.Kernel.has_openFile _ _ _ _
  | @lockTaken description hphase =>
      have hhas : kernel.Has p p description build.config := hok.phase_of hphase
      exact ⟨hhas.lock description, Function.update_self _ _ _⟩
  | @commandEnded description worker command rest hphase =>
      have hlock : kernel.Has p p description build.config ∧ kernel.locked description = true :=
        hok.phase_of hphase
      exact hlock
  | @builtinEnded description command rest hphase =>
      have hlock : kernel.Has p p description build.config ∧ kernel.locked description = true :=
        hok.phase_of hphase
      exact hlock
  | ended => trivial

/-- Nothing is unlocked. -/
theorem worker_keeps (h : BuildStep p alive kernel build kernel' build') (hne : q ≠ p)
    (hkeeps : kernel.Keeps q p config) : kernel'.Keeps q p config := by
  have hleaves := h.leaves
  cases h with
  | openLock _ hunused =>
      exact hleaves.keeps_of_locked (fun hhas => FileLocks.Kernel.locked_openFile hunused hhas)
        hne hkeeps
  | lockTaken => exact hleaves.keeps_of_locked (fun _ => FileLocks.Kernel.locked_lock _) hne hkeeps
  | _ => exact hleaves.keeps_of_locked (fun _ hlocked => hlocked) hne hkeeps

end BuildStep

/-! ## The invariant -/

/-- What is known about the process `p`. -/
def World.Ok (w : World) (p : Nat) : Process → Prop
  | .run run => run.Active → run.Ok p w.kernel
  | .build build => build.Ok p w.kernel
  | .child supervisor config =>
      w.kernel.Keeps p supervisor config ∧
        ∃ run, w.processes supervisor = some (.run run) ∧ (run.Active → run.Knows p config)
  | .worker builder config _ =>
      w.kernel.Keeps p builder config ∧ ∃ build, w.processes builder = some (.build build)
  | .helper => True

structure World.Inv (w : World) : Prop where
  exclusive : w.kernel.Exclusive
  ok : ∀ {p process}, w.processes p = some process → w.Ok p process

namespace World

theorem set_self (w : World) (p : Nat) (kernel : Kernel) (process : Option Process) :
    (w.set p kernel process).processes p = process :=
  Function.update_self _ _ _

theorem set_of_ne (w : World) (kernel : Kernel) (process : Option Process)
    (hne : q ≠ p) : (w.set p kernel process).processes q = w.processes q :=
  Function.update_of_ne hne _ _

variable {process : Option Process}

/-- Only `p` acts: what is left to show is about `p` and about the
processes that belong to it. -/
theorem Inv.act (hw : w.Inv) (hk : kernel'.Exclusive) (hleaves : w.kernel.Leaves kernel' p)
    (hself : ∀ x, process = some x → (w.set p kernel' process).Ok p x)
    (hchild : ∀ {q config}, q ≠ p → w.processes q = some (.child p config) →
      (w.set p kernel' process).Ok q (.child p config))
    (hworker : ∀ {q config command}, q ≠ p → w.processes q = some (.worker p config command) →
      (w.set p kernel' process).Ok q (.worker p config command)) :
    (w.set p kernel' process).Inv where
  exclusive := hk
  ok := by
    intro q x hx
    rcases eq_or_ne q p with rfl | hq
    · rw [set_self] at hx
      exact hself x hx
    · rw [set_of_ne _ _ _ hq] at hx
      have hok := hw.ok hx
      cases x with
      | run run => exact fun hactive => (hok hactive).of_leaves hleaves hq
      | build build => exact BuildProcess.Ok.of_leaves hok hleaves hq
      | child supervisor config =>
          rcases eq_or_ne supervisor p with rfl | hs
          · exact hchild hq hx
          · refine ⟨hleaves.keeps hq hs hok.1, ?_⟩
            rw [set_of_ne _ _ _ hs]
            exact hok.2
      | worker builder config command =>
          rcases eq_or_ne builder p with rfl | hb
          · exact hworker hq hx
          · refine ⟨hleaves.keeps hq hb hok.1, ?_⟩
            rw [set_of_ne _ _ _ hb]
            exact hok.2
      | helper => trivial

/-- Nothing belongs to a process that is neither a supervisor nor a
build. -/
theorem Inv.act_anonymous (hw : w.Inv) (hk : kernel'.Exclusive)
    (hleaves : w.kernel.Leaves kernel' p)
    (hp : ∀ x, w.processes p = some x → x.Anonymous)
    (hself : ∀ x, process = some x → (w.set p kernel' process).Ok p x) :
    (w.set p kernel' process).Inv := by
  refine hw.act hk hleaves hself ?_ ?_
  · intro q config _ hq
    obtain ⟨-, run, hrun, -⟩ := hw.ok hq
    exact absurd (hp _ hrun) id
  · intro q config command _ hq
    obtain ⟨-, build, hbuild⟩ := hw.ok hq
    exact absurd (hp _ hbuild) id

theorem Inv.runStep (hw : w.Inv) (hp : w.processes p = some (.run run))
    (h : RunStep p w.Alive w.kernel run kernel' run') :
    (w.set p kernel' (some (.run run'))).Inv := by
  have hok : run.Active → run.Ok p w.kernel := hw.ok hp
  refine hw.act (h.exclusive hw.exclusive) (h.leaves hok) ?_ ?_ ?_
  · rintro x hx
    cases hx
    exact h.ok hok
  · intro q config hne hq
    obtain ⟨hkeeps, _, hrun, hknows⟩ := hw.ok hq
    cases hp.symm.trans hrun
    exact ⟨h.child_keeps hok hne hknows hkeeps, run', set_self _ _ _ _,
      h.child_known ⟨_, hq, trivial⟩ hknows⟩
  · intro q config command _ hq
    obtain ⟨-, build, hbuild⟩ := hw.ok hq
    cases hp.symm.trans hbuild

theorem Inv.buildStep (hw : w.Inv) (hp : w.processes p = some (.build build))
    (h : BuildStep p w.Alive w.kernel build kernel' build') :
    (w.set p kernel' (some (.build build'))).Inv := by
  refine hw.act (h.exclusive hw.exclusive) h.leaves ?_ ?_ ?_
  · rintro x hx
    cases hx
    exact h.ok (hw.ok hp)
  · intro q config _ hq
    obtain ⟨-, run, hrun, -⟩ := hw.ok hq
    cases hp.symm.trans hrun
  · intro q config command hne hq
    exact ⟨h.worker_keeps hne (hw.ok hq).1, build', set_self _ _ _ _⟩

/-- A process that begins. -/
theorem Inv.begin (hw : w.Inv) (hp : w.processes p = none) {x : Process}
    (hk : kernel'.Exclusive) (hleaves : w.kernel.Leaves kernel' p)
    (hself : (w.set p kernel' (some x)).Ok p x) : (w.set p kernel' (some x)).Inv := by
  refine hw.act_anonymous hk hleaves ?_ ?_
  · intro y hy
    cases hp.symm.trans hy
  · intro y hy
    cases hy
    exact hself

/-- The child inherits the lock that its supervisor has taken. -/
theorem Inv.launch (hw : w.Inv) {pid : Nat} {kind : LaunchKind}
    (hp : w.processes p = some (.run run)) (hphase : run.phase = .launching config kind .ready)
    (hpid : w.processes pid = none) :
    ((w.set p w.kernel
      (some (.run { run with phase := .launching config kind (.forked pid) }))).set
        pid (w.kernel.fork p pid) (some (.child p config))).Inv := by
  have hok : run.Ok p w.kernel := hw.ok hp (.of_phase hphase nofun nofun)
  obtain ⟨hchild, hselected, hfd⟩ := hok.phase_of hphase
  have hne : ∀ {q x}, w.processes q = some x → q ≠ pid := by
    rintro q x hq rfl
    cases hpid.symm.trans hq
  have hw' : (w.set p w.kernel
      (some (.run { run with phase := .launching config kind (.forked pid) }))).Inv := by
    refine hw.act hw.exclusive (.refl _ _) ?_ ?_ ?_
    · rintro x hx
      cases hx
      exact fun _ => hok.setPhase hphase nofun ⟨hchild, hselected, hfd⟩
    · intro q config' _ hq
      obtain ⟨hkeeps, _, hrun, hknows⟩ := hw.ok hq
      cases hp.symm.trans hrun
      refine ⟨hkeeps, _, set_self _ _ _ _, fun _ => .inr ⟨?_, ?_⟩⟩
      · rcases hknows (.of_phase hphase nofun nofun) with ⟨_, heq⟩ | ⟨hshown, -⟩
        · cases hphase.symm.trans heq
        · exact hshown
      · exact fun heq => hne hq (Option.some.inj heq).symm
    · intro q config' command _ hq
      obtain ⟨-, build, hbuild⟩ := hw.ok hq
      cases hp.symm.trans hbuild
  refine hw'.begin ?_ (hw.exclusive.fork p pid) (.fork w.kernel p pid) ⟨?_, ?_⟩
  · rw [set_of_ne _ _ _ (hne hp).symm]
    exact hpid
  · obtain ⟨description, hfd⟩ := Option.ne_none_iff_exists'.mp hfd
    exact FileLocks.Kernel.Keeps.inherit
      ⟨description, hok.has hfd, hok.locked hfd (by rw [hphase]; nofun)⟩
  · rw [set_of_ne _ _ _ (hne hp), set_self]
    exact ⟨_, rfl, fun _ => .inl ⟨kind, rfl⟩⟩

/-- A command of a build inherits the lock of the build. -/
theorem Inv.command (hw : w.Inv) {worker : Nat} {command : BuildCommand}
    {rest : List BuildCommand} (hp : w.processes p = some (.build build))
    (hphase : build.phase = .working description (command :: rest))
    (hworker : w.processes worker = none) :
    ((w.set p w.kernel
      (some (.build { build with phase := .waiting description (command :: rest) worker }))).set
        worker (w.kernel.fork p worker) (some (.worker p build.config command))).Inv := by
  have hok : w.kernel.Has p p description build.config ∧ w.kernel.locked description = true :=
    BuildProcess.Ok.phase_of (hw.ok hp) hphase
  have hne : p ≠ worker := by
    rintro rfl
    cases hworker.symm.trans hp
  have hw' : (w.set p w.kernel (some (.build
      { build with phase := .waiting description (command :: rest) worker }))).Inv := by
    refine hw.act hw.exclusive (.refl _ _) ?_ ?_ ?_
    · rintro x hx
      cases hx
      exact hok
    · intro q config _ hq
      obtain ⟨-, run, hrun, -⟩ := hw.ok hq
      cases hp.symm.trans hrun
    · intro q config command' _ hq
      exact ⟨(hw.ok hq).1, _, set_self _ _ _ _⟩
  refine hw'.begin ?_ (hw.exclusive.fork p worker) (.fork w.kernel p worker) ⟨?_, ?_⟩
  · rw [set_of_ne _ _ _ hne.symm]
    exact hworker
  · exact FileLocks.Kernel.Keeps.inherit ⟨description, hok⟩
  · rw [set_of_ne _ _ _ hne, set_self]
    exact ⟨_, rfl⟩

theorem Initial.inv (h : w.Initial) : w.Inv where
  exclusive := by
    rintro o o' ⟨-, q, hmem⟩
    rw [h.2 q] at hmem
    cases hmem
  ok := by
    intro q process hq
    cases (h.1 q).symm.trans hq

end World

theorem Step.inv {action : Action} (h : Step w action w') (hw : w.Inv) : w'.Inv := by
  cases h with
  | startRun hp hselects =>
      refine hw.begin hp (hw.exclusive.closeAll _) (.closeAll _ _) fun _ => ?_
      exact RunProcess.start_ok _ _ (Supervisor.selects_nodup hselects)
  | startBuild hp => exact hw.begin hp (hw.exclusive.closeAll _) (.closeAll _ _) trivial
  | run hp hstep => exact hw.runStep hp hstep
  | launch hp hphase hpid => exact hw.launch hp hphase hpid
  | build hp hstep => exact hw.buildStep hp hstep
  | builtin => exact hw
  | command hp hphase hworker => exact hw.command hp hphase hworker
  | work => exact hw
  | @subcommand p q builder config command hp hq =>
      obtain ⟨hkeeps, build, hbuild⟩ := hw.ok hp
      refine hw.begin hq (hw.exclusive.fork _ _) (.fork _ _ _) ⟨hkeeps.inherit, build, ?_⟩
      rw [World.set_of_ne]
      · exact hbuild
      · rintro rfl
        cases hq.symm.trans hbuild
  | help _ hq => exact hw.begin hq (hw.exclusive.fork _ _) (.fork _ _ _) trivial
  | @finish p process hp hanonymous =>
      refine hw.act_anonymous (hw.exclusive.closeAll _) (.closeAll _ _) ?_ nofun
      intro x hx
      cases hp.symm.trans hx
      exact hanonymous

theorem reachable_inv (h : system.Reachable w) : w.Inv := by
  refine h.invariant ?_ ?_
  · intro w hinit
    exact World.Initial.inv hinit
  · intro w action w' hw hstep
    exact Step.inv hstep hw

/-! ## Exclusion -/

/-- Whoever changes the directories of a configuration keeps its lock, and
has it from a build. -/
theorem Step.builder {command : BuildCommand} (h : Step w (.modify config command) w')
    (hw : w.Inv) : ∃ q builder build, w.processes builder = some (.build build) ∧
      w.kernel.Keeps q builder config := by
  cases h with
  | @builtin p description build _ rest hp hphase =>
      have hok : w.kernel.Has p p description build.config ∧ w.kernel.locked description = true :=
        BuildProcess.Ok.phase_of (hw.ok hp) hphase
      exact ⟨p, p, build, hp, description, hok⟩
  | @work p builder _ _ hp =>
      obtain ⟨hkeeps, build, hbuild⟩ := hw.ok hp
      exact ⟨p, builder, build, hbuild, hkeeps⟩

/-- In every reachable state no build changes the directories of a
configuration for which a server is alive, and all servers for one
configuration have one supervisor. -/
theorem builds_and_campaigns_exclude (h : system.Reachable w) :
    (∀ config command w', system.step w (.modify config command) w' → ¬ w.Serving config) ∧
      ∀ pid pid' supervisor supervisor' config,
        w.processes pid = some (.child supervisor config) →
        w.processes pid' = some (.child supervisor' config) → supervisor = supervisor' := by
  have hw := reachable_inv h
  constructor
  · rintro config command w' hstep ⟨pid, supervisor, hpid⟩
    obtain ⟨q, builder, build, hbuild, hkeeps⟩ := Step.builder hstep hw
    obtain ⟨hchild, run, hrun, -⟩ := hw.ok hpid
    obtain rfl := hw.exclusive.owner_unique hkeeps hchild
    cases hbuild.symm.trans hrun
  · intro pid pid' supervisor supervisor' config hpid hpid'
    exact hw.exclusive.owner_unique (hw.ok hpid).1 (hw.ok hpid').1

/-- Nothing runs yet. -/
def World.empty : World where
  kernel :=
    { file := fun _ => 0, opener := fun _ => 0, locked := fun _ => false,
      descriptors := fun _ => [] }
  processes := fun _ => none

/-- A build can come as far as to open its lock file. -/
theorem opensLock {p config o : Nat} (options : BuildOptions) (h : system.Reachable w)
    (hnone : w.processes p = none) (hunused : w.kernel.Unused o) :
    ∃ w', system.Reachable w' ∧ w'.processes p = some (.build ⟨config, options, .opened o⟩)
      ∧ w'.kernel = (w.kernel.closeAll p).openFile p o config
      ∧ ∀ q, q ≠ p → w'.processes q = w.processes q := by
  have hunused' : (w.kernel.closeAll p).Unused o := by
    intro q hq
    rcases eq_or_ne q p with rfl | hne
    · exact absurd hq (by simp [FileLocks.Kernel.closeAll])
    · simp only [FileLocks.Kernel.closeAll, Function.update_of_ne hne] at hq
      exact hunused q hq
  have hstarted := h.step (@Step.startBuild _ p config options hnone)
  have hchecked := hstarted.step (Step.build (p := p) (Function.update_self _ _ _) (.checked rfl))
  have hopened := hchecked.step
    (Step.build (p := p) (Function.update_self _ _ _) (.openLock rfl hunused'))
  refine ⟨_, hopened, Function.update_self _ _ _, rfl, fun q hne => ?_⟩
  simp only [World.set, Function.update_of_ne hne]

/-- A supervisor launches a server for configuration 1. -/
theorem serves_demo : ∃ w, system.Reachable w ∧ w.processes 1 = some (.child 0 1)
    ∧ (w.processes 2 = none ∧ w.processes 3 = none)
    ∧ (∀ p, ∀ o ∈ w.kernel.descriptors p, o = 0)
    ∧ w.kernel.file = Function.update (fun _ => 0) 0 1 := by
  let campaign : Campaign := ⟨[], [], 2, true⟩
  have h0 : system.Reachable World.empty := .start ⟨fun _ => rfl, fun _ => rfl⟩
  have hselects : campaign.Selects [1] := .one (by decide)
  have h1 := h0.step (Step.startRun (p := 0) rfl hselects)
  have h2 := h1.step (Step.run (p := 0) rfl (.next rfl rfl))
  have h3 := h2.step (Step.run (p := 0) rfl (.staged rfl))
  have hunused : ∀ p, 0 ∉ (World.empty.kernel.closeAll 0).descriptors p := by
    intro p
    change 0 ∉ Function.update (fun _ => []) 0 [] p
    rw [Function.update_eq_self]
    nofun
  have h4 := h3.step (Step.run (p := 0) rfl (.openLock rfl rfl hunused))
  have hfree : ((World.empty.kernel.closeAll 0).openFile 0 0 1).Free 0 := by
    rintro o hne - ⟨hlocked, -⟩
    change Function.update (fun _ => false) 0 false o = true at hlocked
    rw [Function.update_of_ne hne] at hlocked
    cases hlocked
  have h5 := h4.step (Step.run (p := 0) rfl (.lockTaken rfl hfree))
  have h6 := h5.step (Step.run (p := 0) rfl (.prepared rfl))
  refine ⟨_, h6.step (@Step.launch _ 0 1 1 _ _ rfl rfl rfl), rfl, ⟨rfl, rfl⟩, ?_, rfl⟩
  intro p o ho
  simp only [World.set, World.empty, FileLocks.Kernel.fork, FileLocks.Kernel.lock,
    FileLocks.Kernel.openFile, FileLocks.Kernel.closeAll, Function.update_apply] at ho
  split_ifs at ho <;> simp_all

/-- A build of the configuration that is served has its lock file open and
cannot go on; one of configuration 2 works. -/
theorem builds_and_campaigns_exclude_serving : ∃ w, system.Reachable w ∧ w.Serving 1 ∧
    (∃ build, w.processes 2 = some (.build build) ∧ build.config = 1 ∧ build.phase = .opened 1) ∧
    (∀ command w', ¬ system.step w (.modify 1 command) w') ∧
    ∃ command w', system.step w (.modify 2 command) w' := by
  obtain ⟨w, hw, hserver, ⟨hnone₂, hnone₃⟩, hdescriptors, hfile⟩ := serves_demo
  obtain ⟨w₁, hw₁, hbuild₁, hkernel₁, hrest₁⟩ := @opensLock w 2 1 1 ⟨true, false, false⟩ hw
    hnone₂ fun p hp => by cases hdescriptors p 1 hp
  have hunused₁ : w₁.kernel.Unused 2 := by
    intro p hp
    rw [hkernel₁] at hp
    simp only [FileLocks.Kernel.openFile, FileLocks.Kernel.closeAll, Function.update_apply] at hp
    split_ifs at hp
    · simp at hp
    · cases hdescriptors p 2 hp
  obtain ⟨w₂, hw₂, hbuild₂, hkernel₂, hrest₂⟩ := @opensLock w₁ 3 2 2 ⟨true, false, false⟩ hw₁
    ((hrest₁ 3 (by decide)).trans hnone₃) hunused₁
  have hfree₂ : w₂.kernel.Free 2 := by
    intro o hne hsame
    rw [hkernel₂, hkernel₁] at hsame
    simp only [FileLocks.Kernel.openFile, FileLocks.Kernel.closeAll, hfile, Function.update_apply,
      if_neg hne, if_pos] at hsame
    split_ifs at hsame <;> cases hsame
  obtain ⟨w₃, hw₃, hbuild₃, hrest₃⟩ : ∃ w₃, system.Reachable w₃
      ∧ w₃.processes 3 = some (.build ⟨2, ⟨true, false, false⟩, .working 2 stageRuntime⟩)
      ∧ ∀ q, q ≠ 3 → w₃.processes q = w₂.processes q :=
    ⟨_, hw₂.step (Step.build (p := 3) hbuild₂ (.lockTaken rfl hfree₂)), rfl,
      fun q hne => Function.update_of_ne hne _ _⟩
  have hserving : w₃.Serving 1 :=
    ⟨1, 0, (hrest₃ 1 (by decide)).trans ((hrest₂ 1 (by decide)).trans
      ((hrest₁ 1 (by decide)).trans hserver))⟩
  have hwaits := (hrest₃ 2 (by decide)).trans ((hrest₂ 2 (by decide)).trans hbuild₁)
  refine ⟨w₃, hw₃, hserving, ⟨_, hwaits, rfl, rfl⟩, fun command w' hstep => ?_,
    _, _, Step.builtin hbuild₃ rfl⟩
  exact (builds_and_campaigns_exclude hw₃).1 1 command w' hstep hserving

end LighttpdFuzz.Profiles

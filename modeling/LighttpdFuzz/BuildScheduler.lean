import Mathlib.Algebra.Order.BigOperators.Group.List
import Mathlib.Algebra.Order.Group.Nat
import Mathlib.Data.List.Perm.Subperm
import Mathlib.Order.Nat
import Mathlib.Logic.Function.Basic
import LighttpdFuzz.AssocMap
import LighttpdFuzz.Transition

/-!
# Building all profiles

The part of `build.sh` that builds all configurations: an inner loop starts
children while there are configurations and free places, `wait -n` reports
one child that has ended, and the first failure that it reports stops
everything. Children end when they like, whether the script waits or not.

`Inv` relates the table of the script to the children: `build_children` has
exactly those that were started and not yet reaped, and it never has more
than `max_config_builds` entries. A failure that has been reported is
followed by nothing but the cleanup, so a status of zero means that every
configuration was built.
-/

namespace LighttpdFuzz.BuildScheduler

/-! ## The script -/

/-- What is known before the loop begins. -/
structure BuildPlan where
  /-- How many configurations `discover_configs` has found. -/
  configCount : Nat
  availableCores : Nat
  jobs : Nat
  configs_pos : 0 < configCount
  cores_pos : 0 < availableCores
  jobs_pos : 0 < jobs

/-- `CONFIG_IDS`; `discover_configs` checks that they are contiguous. -/
def BuildPlan.configIds (plan : BuildPlan) : List Nat := List.range' 1 plan.configCount

def BuildPlan.maxConfigBuilds (plan : BuildPlan) : Nat :=
  let builds := plan.availableCores / plan.jobs
  let builds := if builds < 1 then 1 else builds
  if builds > plan.configCount then plan.configCount else builds

/-- The build of a configuration. -/
inductive Job where
  | unstarted
  | running (pid : Nat)
  /-- The child has ended, and `wait` has not reported it. -/
  | ended (pid : Nat) (success : Bool)
  | reaped (success : Bool)
  deriving DecidableEq, Repr

inductive Phase where
  /-- At the test of the outer loop. -/
  | outer
  /-- At the test of the inner loop. -/
  | inner
  /-- In `wait -n`. -/
  | waiting
  /-- In `cleanup_build_children`, with the status to exit with. -/
  | cleaning (status : Nat)
  /-- Behind `trap - EXIT INT TERM`. -/
  | untrapped
  | exited (status : Nat)
  deriving DecidableEq, Repr

structure Scheduler where
  phase : Phase
  nextConfig : Nat
  /-- The configuration of each child. -/
  buildChildren : AssocMap Nat Nat
  jobs : Nat → Job
  /-- The configurations in the order in which they were started. -/
  started : List Nat
  /-- Whether the script has got a signal. -/
  signalled : Bool

def Scheduler.init : Scheduler := ⟨.outer, 0, .empty, fun _ => .unstarted, [], false⟩

/-- `${#build_children[@]}` -/
def Scheduler.size (s : Scheduler) : Nat := s.buildChildren.keys.length

inductive Action where
  | script | child | signal
  deriving DecidableEq, Repr

/-- The status of a script that a signal ends: `INT` or `TERM`. -/
def IsSignalStatus (status : Nat) : Prop := status = 130 ∨ status = 143

theorem IsSignalStatus.ne_zero {status : Nat} (h : IsSignalStatus status) : status ≠ 0 := by
  rcases h with rfl | rfl <;> decide

/-- A child that was started and is not yet reaped. -/
def Job.Listed (job : Job) (pid : Nat) : Prop :=
  job = .running pid ∨ ∃ success, job = .ended pid success

/-- How the child has ended. -/
def Job.outcome : Job → Option Bool
  | .ended _ success | .reaped success => some success
  | _ => none

inductive Step (plan : BuildPlan) (s : Scheduler) : Action → Scheduler → Prop
  | enter : s.phase = .outer → s.nextConfig < plan.configCount ∨ 0 < s.size →
      Step plan s .script { s with phase := .inner }
  | leave : s.phase = .outer → ¬ (s.nextConfig < plan.configCount ∨ 0 < s.size) →
      Step plan s .script { s with phase := .untrapped }
  | start {pid config : Nat} : s.phase = .inner →
      s.nextConfig < plan.configCount ∧ s.size < plan.maxConfigBuilds →
      plan.configIds[s.nextConfig]? = some config → s.buildChildren.get pid = none →
      Step plan s .script
        { s with
          buildChildren := s.buildChildren.set pid config
          nextConfig := s.nextConfig + 1
          jobs := Function.update s.jobs config (.running pid)
          started := s.started ++ [config] }
  | full : s.phase = .inner → ¬ (s.nextConfig < plan.configCount ∧ s.size < plan.maxConfigBuilds) →
      Step plan s .script { s with phase := .waiting }
  /-- `wait -n` reports a child, and `exit 1` follows if it failed. -/
  | reap {pid config : Nat} {success : Bool} : s.phase = .waiting →
      s.buildChildren.get pid = some config → s.jobs config = .ended pid success →
      Step plan s .script
        { s with
          buildChildren := s.buildChildren.erase pid
          jobs := Function.update s.jobs config (.reaped success)
          phase := if success then .outer else .cleaning 1 }
  /-- The cleanup has stopped the children and waited for them. -/
  | cleaned {status : Nat} : s.phase = .cleaning status →
      (∀ pid config, s.buildChildren.get pid = some config →
        ∃ success, s.jobs config = .ended pid success) →
      Step plan s .script { s with phase := .exited status }
  | exit : s.phase = .untrapped → Step plan s .script { s with phase := .exited 0 }
  | ends {pid config : Nat} {success : Bool} : s.jobs config = .running pid →
      Step plan s .child { s with jobs := Function.update s.jobs config (.ended pid success) }
  | trapped {status : Nat} : s.phase = .outer ∨ s.phase = .inner ∨ s.phase = .waiting →
      IsSignalStatus status →
      Step plan s .signal { s with phase := .cleaning status, signalled := true }
  /-- The cleanup has reset the traps. -/
  | killed {status : Nat} : (∃ old, s.phase = .cleaning old) ∨ s.phase = .untrapped →
      IsSignalStatus status →
      Step plan s .signal { s with phase := .exited status, signalled := true }

def system (plan : BuildPlan) : TransitionSystem Scheduler Action where
  init s := s = .init
  step := Step plan

/-! ## The number of children -/

variable {plan : BuildPlan} {s s' : Scheduler} {a : Action}

theorem maxConfigBuilds_eq (plan : BuildPlan) : plan.maxConfigBuilds
    = max 1 (min plan.configCount (plan.availableCores / plan.jobs)) := by
  have hpos := plan.configs_pos
  unfold BuildPlan.maxConfigBuilds
  generalize plan.availableCores / plan.jobs = builds
  dsimp only
  split_ifs <;> omega

theorem maxConfigBuilds_pos (plan : BuildPlan) : 0 < plan.maxConfigBuilds := by
  rw [maxConfigBuilds_eq]
  exact Nat.lt_of_lt_of_le Nat.one_pos (le_max_left _ _)

/-- The make jobs of all children. -/
theorem maxConfigBuilds_mul_le (plan : BuildPlan) :
    plan.maxConfigBuilds * plan.jobs ≤ max plan.availableCores plan.jobs := by
  have hmul := Nat.div_mul_le_self plan.availableCores plan.jobs
  rw [maxConfigBuilds_eq]
  rcases le_total 1 (min plan.configCount (plan.availableCores / plan.jobs)) with h | h
  · rw [max_eq_right h]
    exact (Nat.mul_le_mul_right _ (min_le_right _ _)).trans (hmul.trans (le_max_left _ _))
  · rw [max_eq_left h, Nat.one_mul]
    exact le_max_right _ _

def Job.isRunning : Job → Bool
  | .running _ => true
  | _ => false

/-- How many children run. -/
def runningChildren (plan : BuildPlan) (s : Scheduler) : Nat :=
  plan.configIds.countP fun config => (s.jobs config).isRunning

/-! ## The invariant -/

/-- A failure that has been reported. -/
def Scheduler.Failed (s : Scheduler) : Prop := ∃ config, s.jobs config = .reaped false

/-- A child has failed, reported or not. -/
def Scheduler.ChildFailed (s : Scheduler) : Prop := ∃ config, (s.jobs config).outcome = some false

def Scheduler.AllSucceeded (plan : BuildPlan) (s : Scheduler) : Prop :=
  s.started = plan.configIds ∧ ∀ config ∈ plan.configIds, (s.jobs config).outcome = some true

/-- Everything was started, and nothing is left to wait for. -/
def Scheduler.Done (plan : BuildPlan) (s : Scheduler) : Prop :=
  ¬ s.Failed ∧ s.nextConfig = plan.configCount ∧ s.size = 0

/-- What the phase of the script says about its end. -/
def PhaseOk (plan : BuildPlan) (s : Scheduler) : Prop :=
  match s.phase with
  | .outer => ¬ s.Failed
  | .inner => ¬ s.Failed ∧ (s.nextConfig < plan.configCount ∨ 0 < s.size)
  | .waiting => ¬ s.Failed ∧ 0 < s.size
  | .cleaning status => status ≠ 0 ∧ (s.signalled = false → s.Failed)
  | .untrapped => s.Done plan
  | .exited status =>
      (status = 0 → s.Done plan) ∧ (status ≠ 0 → s.signalled = false → s.Failed)

theorem PhaseOk.congr (h : PhaseOk plan s) (hphase : s'.phase = s.phase)
    (hnext : s'.nextConfig = s.nextConfig) (hsize : s'.size = s.size)
    (hsignalled : s'.signalled = s.signalled) (hfailed : s'.Failed ↔ s.Failed) :
    PhaseOk plan s' := by
  unfold PhaseOk Scheduler.Done at h ⊢
  rw [hphase, hnext, hsize, hsignalled, hfailed]
  exact h

structure Inv (plan : BuildPlan) (s : Scheduler) : Prop where
  next_le : s.nextConfig ≤ plan.configCount
  started_eq : s.started = plan.configIds.take s.nextConfig
  unstarted_iff : ∀ config, s.jobs config = .unstarted ↔ config ∉ s.started
  children : ∀ pid config, s.buildChildren.get pid = some config ↔ (s.jobs config).Listed pid
  size_le : s.size ≤ plan.maxConfigBuilds
  phase : PhaseOk plan s

theorem not_listed_unstarted (pid : Nat) : ¬ Job.unstarted.Listed pid := by
  rintro (h | ⟨_, h⟩) <;> cases h

theorem listed_running (pid pid' : Nat) : (Job.running pid).Listed pid' ↔ pid = pid' := by
  constructor
  · rintro (h | ⟨_, h⟩) <;> cases h
    rfl
  · rintro rfl
    exact .inl rfl

theorem listed_ended (pid pid' : Nat) (success : Bool) :
    (Job.ended pid success).Listed pid' ↔ pid = pid' := by
  constructor
  · rintro (h | ⟨_, h⟩) <;> cases h
    rfl
  · rintro rfl
    exact .inr ⟨success, rfl⟩

theorem not_listed_reaped (success : Bool) (pid : Nat) : ¬ (Job.reaped success).Listed pid := by
  rintro (h | ⟨_, h⟩) <;> cases h

theorem inv_init (plan : BuildPlan) : Inv plan .init where
  next_le := Nat.zero_le _
  started_eq := rfl
  unstarted_iff config := iff_of_true rfl List.not_mem_nil
  children pid config := iff_of_false nofun (not_listed_unstarted pid)
  size_le := Nat.zero_le _
  phase := by
    rintro ⟨config, h⟩
    cases h

/-- A job that changes between other states than `other`. -/
theorem update_eq_iff {jobs : Nat → Job} {config : Nat} {job other : Job}
    (hold : jobs config ≠ other) (hjob : job ≠ other) (c : Nat) :
    Function.update jobs config job c = other ↔ jobs c = other := by
  rcases eq_or_ne c config with rfl | hne
  · rw [Function.update_self]
    exact iff_of_false hjob hold
  · rw [Function.update_of_ne hne]

/-- A job that changes and is not reported as a failure. -/
theorem failed_update {config : Nat} {job : Job}
    (hjobs : s'.jobs = Function.update s.jobs config job) (hold : s.jobs config ≠ .reaped false)
    (hjob : job ≠ .reaped false) : s'.Failed ↔ s.Failed := by
  unfold Scheduler.Failed
  rw [hjobs]
  exact exists_congr (update_eq_iff hold hjob)

theorem configIds_getElem {i config : Nat} (h : plan.configIds[i]? = some config) :
    config ∉ plan.configIds.take i ∧ plan.configIds.take (i + 1) = plan.configIds.take i ++ [config]
      ∧ config ∈ plan.configIds := by
  obtain ⟨hi, hget⟩ := List.getElem?_eq_some_iff.mp h
  have htake : plan.configIds.take (i + 1) = plan.configIds.take i ++ [config] := by
    rw [List.take_add_one, h]
    rfl
  refine ⟨fun hmem => ?_, htake, List.mem_of_getElem? h⟩
  have hnodup : (plan.configIds.take (i + 1)).Nodup :=
    (show plan.configIds.Nodup from List.nodup_range').sublist (List.take_sublist _ _)
  rw [htake] at hnodup
  exact List.disjoint_of_nodup_append hnodup hmem (List.mem_singleton_self config)

theorem size_erase_lt {m : AssocMap Nat Nat} {pid config : Nat} (h : m.get pid = some config) :
    (m.erase pid).keys.length < m.keys.length := by
  rw [AssocMap.keys_erase]
  refine List.length_filter_lt_length_iff_exists.mpr ⟨pid, ?_, by simp⟩
  exact AssocMap.get_isSome_iff.mp (Option.isSome_iff_exists.mpr ⟨config, h⟩)

/-- Only the phase changes. -/
theorem Inv.setPhase (h : Inv plan s) {phase : Phase} {signalled : Bool}
    (hphase : PhaseOk plan { s with phase := phase, signalled := signalled }) :
    Inv plan { s with phase := phase, signalled := signalled } :=
  ⟨h.next_le, h.started_eq, h.unstarted_iff, h.children, h.size_le, hphase⟩

theorem Inv.unstarted_of_getElem (h : Inv plan s) {config : Nat}
    (hconfig : plan.configIds[s.nextConfig]? = some config) : s.jobs config = .unstarted := by
  rw [h.unstarted_iff, h.started_eq]
  exact (configIds_getElem hconfig).1

theorem Inv.start (h : Inv plan s) {pid config : Nat} (hphase : s.phase = .inner)
    (hroom : s.nextConfig < plan.configCount ∧ s.size < plan.maxConfigBuilds)
    (hconfig : plan.configIds[s.nextConfig]? = some config)
    (hpid : s.buildChildren.get pid = none) :
    Inv plan
      { s with
        buildChildren := s.buildChildren.set pid config
        nextConfig := s.nextConfig + 1
        jobs := Function.update s.jobs config (.running pid)
        started := s.started ++ [config] } := by
  have htake := (configIds_getElem hconfig).2.1
  have hunstarted := h.unstarted_of_getElem hconfig
  have hsize : (s.buildChildren.set pid config).keys.length = s.size + 1 := by
    rw [AssocMap.keys_set, if_neg (AssocMap.get_eq_none_iff.mp hpid), List.length_append]
    rfl
  have hkept : s.jobs config ≠ .reaped false := by
    rw [hunstarted]
    nofun
  refine ⟨hroom.1, by rw [htake, h.started_eq], fun config' => ?_, fun pid' config' => ?_, ?_, ?_⟩
  · dsimp only
    rw [List.mem_append, List.mem_singleton, not_or]
    rcases eq_or_ne config' config with rfl | hc
    · rw [Function.update_self]
      exact iff_of_false nofun fun hmem => hmem.2 rfl
    · rw [Function.update_of_ne hc, h.unstarted_iff]
      exact (and_iff_left hc).symm
  · dsimp only
    rw [AssocMap.get_set]
    rcases eq_or_ne config' config with rfl | hc
    · rw [Function.update_self, listed_running]
      by_cases hp : pid' = pid
      · rw [if_pos hp, hp]
        exact iff_of_true rfl rfl
      · rw [if_neg hp, h.children, hunstarted]
        exact iff_of_false (not_listed_unstarted pid') (Ne.symm hp)
    · rw [Function.update_of_ne hc, ← h.children]
      by_cases hp : pid' = pid
      · rw [if_pos hp, hp, hpid]
        exact iff_of_false (fun heq => hc (Option.some.inj heq).symm) nofun
      · rw [if_neg hp]
  · exact hsize.trans_le hroom.2
  · have hlive := h.phase
    unfold PhaseOk at hlive ⊢
    rw [hphase] at hlive
    simp only [hphase]
    exact ⟨fun hfailed => hlive.1 ((failed_update rfl hkept (by nofun)).mp hfailed),
      Or.inr ((Nat.succ_pos s.size).trans_eq hsize.symm)⟩

theorem Inv.reap (h : Inv plan s) {pid config : Nat} {success : Bool} (hphase : s.phase = .waiting)
    (hpid : s.buildChildren.get pid = some config) (hjob : s.jobs config = .ended pid success) :
    Inv plan
      { s with
        buildChildren := s.buildChildren.erase pid
        jobs := Function.update s.jobs config (.reaped success)
        phase := if success then .outer else .cleaning 1 } := by
  have hkept : s.jobs config ≠ .reaped false := by
    rw [hjob]
    nofun
  have hbegun : s.jobs config ≠ .unstarted := by
    rw [hjob]
    nofun
  refine ⟨h.next_le, h.started_eq, fun config' => ?_, fun pid' config' => ?_, ?_, ?_⟩
  · exact (update_eq_iff hbegun (by nofun) config').trans (h.unstarted_iff config')
  · dsimp only
    rw [AssocMap.get_erase]
    rcases eq_or_ne config' config with rfl | hc
    · rw [Function.update_self]
      refine iff_of_false (fun hget => ?_) (not_listed_reaped success pid')
      by_cases hp : pid' = pid
      · rw [if_pos hp] at hget
        cases hget
      · rw [if_neg hp, h.children, hjob, listed_ended] at hget
        exact hp hget.symm
    · rw [Function.update_of_ne hc, ← h.children]
      by_cases hp : pid' = pid
      · rw [if_pos hp, hp, hpid]
        exact iff_of_false nofun fun heq => hc (Option.some.inj heq).symm
      · rw [if_neg hp]
  · exact (size_erase_lt hpid).le.trans h.size_le
  · have hlive := h.phase
    unfold PhaseOk at hlive
    rw [hphase] at hlive
    cases success with
    | false => exact ⟨by decide, fun _ => ⟨config, Function.update_self ..⟩⟩
    | true => exact fun hfailed => hlive.1 ((failed_update rfl hkept (by nofun)).mp hfailed)

theorem Inv.ends (h : Inv plan s) {pid config : Nat} {success : Bool}
    (hjob : s.jobs config = .running pid) :
    Inv plan { s with jobs := Function.update s.jobs config (.ended pid success) } := by
  have hkept : s.jobs config ≠ .reaped false := by
    rw [hjob]
    nofun
  have hbegun : s.jobs config ≠ .unstarted := by
    rw [hjob]
    nofun
  refine ⟨h.next_le, h.started_eq, fun config' => ?_, fun pid' config' => ?_, h.size_le, ?_⟩
  · exact (update_eq_iff hbegun (by nofun) config').trans (h.unstarted_iff config')
  · dsimp only
    rw [h.children]
    rcases eq_or_ne config' config with rfl | hc
    · rw [Function.update_self, hjob, listed_running, listed_ended]
    · rw [Function.update_of_ne hc]
  · exact h.phase.congr rfl rfl rfl rfl (failed_update rfl hkept nofun)

theorem Step.inv (h : Step plan s a s') (hinv : Inv plan s) : Inv plan s' := by
  have hok := hinv.phase
  unfold PhaseOk at hok
  cases h with
  | enter hphase hmore =>
      rw [hphase] at hok
      exact hinv.setPhase ⟨hok, hmore⟩
  | leave hphase hdone =>
      rw [hphase] at hok
      rw [not_or, Nat.not_lt, Nat.not_lt, Nat.le_zero] at hdone
      exact hinv.setPhase ⟨hok, Nat.le_antisymm hinv.next_le hdone.1, hdone.2⟩
  | start hphase hroom hconfig hpid => exact hinv.start hphase hroom hconfig hpid
  | full hphase hfull =>
      rw [hphase] at hok
      have hpos := maxConfigBuilds_pos plan
      refine hinv.setPhase ⟨hok.1, ?_⟩
      rcases hok.2 with hmore | hsize
      · have hle := Nat.le_of_not_lt fun hroom => hfull ⟨hmore, hroom⟩
        exact Nat.lt_of_lt_of_le hpos hle
      · exact hsize
  | reap hphase hpid hjob => exact hinv.reap hphase hpid hjob
  | cleaned hphase _ =>
      rw [hphase] at hok
      exact hinv.setPhase ⟨fun hzero => absurd hzero hok.1, fun _ => hok.2⟩
  | exit hphase =>
      rw [hphase] at hok
      exact hinv.setPhase ⟨fun _ => hok, fun hne => absurd rfl hne⟩
  | ends hjob => exact hinv.ends hjob
  | trapped _ hstatus => exact hinv.setPhase ⟨hstatus.ne_zero, nofun⟩
  | killed _ hstatus =>
      exact hinv.setPhase ⟨fun hzero => absurd hzero hstatus.ne_zero, fun _ => nofun⟩

theorem inv_of_reachable (h : (system plan).Reachable s) : Inv plan s := by
  refine h.invariant ?_ ?_
  · rintro s rfl
    exact inv_init plan
  · exact fun s a s' hinv hstep => Step.inv hstep hinv

/-! ## The children -/

theorem Inv.mem_configIds (h : Inv plan s) {config : Nat} (hjob : s.jobs config ≠ .unstarted) :
    config ∈ plan.configIds := by
  have hmem : config ∈ s.started := by
    by_contra hnot
    exact hjob ((h.unstarted_iff config).mpr hnot)
  rw [h.started_eq] at hmem
  exact List.mem_of_mem_take hmem

/-- A running child has an entry of its own. -/
theorem Inv.running_le_size (h : Inv plan s) : runningChildren plan s ≤ s.size := by
  have hnodup : (plan.configIds.filter fun config => (s.jobs config).isRunning).Nodup :=
    (show plan.configIds.Nodup from List.nodup_range').filter _
  have hsub : (plan.configIds.filter fun config => (s.jobs config).isRunning)
      ⊆ s.buildChildren.entries.map Prod.snd := by
    intro config hmem
    have hrun := (List.mem_filter.mp hmem).2
    cases hjob : s.jobs config with
    | running pid =>
        have hget : s.buildChildren.get pid = some config := by
          rw [h.children, hjob, listed_running]
        exact List.mem_map.mpr ⟨(pid, config), AssocMap.get_eq_some_iff.mp hget, rfl⟩
    | _ =>
        rw [hjob] at hrun
        cases hrun
  have hlen := (hnodup.subperm hsub).length_le
  rw [List.length_map] at hlen
  unfold runningChildren Scheduler.size AssocMap.keys
  rw [List.countP_eq_length_filter, List.length_map]
  exact hlen

theorem Inv.running_le (h : Inv plan s) : runningChildren plan s ≤ plan.maxConfigBuilds :=
  h.running_le_size.trans h.size_le

theorem Inv.pairwise_started (h : Inv plan s) : s.started.Pairwise (· < ·) := by
  rw [h.started_eq]
  exact (show plan.configIds.Pairwise (· < ·) from List.pairwise_lt_range').sublist
    (List.take_sublist _ _)

/-! ## Failure and success -/

theorem Step.failed (h : Step plan s a s') (hinv : Inv plan s) (hfailed : s.Failed) :
    s'.Failed ∧ s'.started = s.started := by
  have hok := hinv.phase
  unfold PhaseOk at hok
  cases h with
  | start hphase =>
      rw [hphase] at hok
      exact absurd hfailed hok.1
  | reap hphase =>
      rw [hphase] at hok
      exact absurd hfailed hok.1
  | @ends pid config success hjob =>
      have hkept : s.jobs config ≠ .reaped false := by
        rw [hjob]
        nofun
      exact ⟨(failed_update rfl hkept (by nofun)).mpr hfailed, rfl⟩
  | _ => exact ⟨hfailed, rfl⟩

theorem failed_leads (h : (system plan).Reachable s) (hfailed : s.Failed)
    (hleads : (system plan).Leads s s') :
    (system plan).Reachable s' ∧ s'.Failed ∧ s'.started = s.started := by
  refine hleads.persists (p := fun s' => s'.Failed ∧ s'.started = s.started) ?_ h ⟨hfailed, rfl⟩
  rintro s₁ a s₂ hs ⟨hfailed₁, hstarted⟩ hstep
  obtain ⟨hfailed₂, heq⟩ := Step.failed hstep (inv_of_reachable hs) hfailed₁
  exact ⟨hfailed₂, heq.trans hstarted⟩

/-- How a child has ended is for good. -/
theorem Step.outcome (h : Step plan s a s') (hinv : Inv plan s) {config : Nat} {success : Bool}
    (hout : (s.jobs config).outcome = some success) :
    (s'.jobs config).outcome = some success := by
  have hupdate {config' : Nat} {job : Job} (hjob : config = config' → job.outcome = some success) :
      (Function.update s.jobs config' job config).outcome = some success := by
    by_cases heq : config = config'
    · rw [heq, Function.update_self]
      exact hjob heq
    · rw [Function.update_of_ne heq]
      exact hout
  cases h with
  | start _ _ hconfig =>
      refine hupdate ?_
      rintro rfl
      rw [hinv.unstarted_of_getElem hconfig] at hout
      cases hout
  | reap _ _ hjob =>
      refine hupdate ?_
      rintro rfl
      rw [hjob] at hout
      exact hout
  | ends hjob =>
      refine hupdate ?_
      rintro rfl
      rw [hjob] at hout
      cases hout
  | _ => exact hout

theorem Inv.started_of_done (h : Inv plan s) (hdone : s.Done plan) :
    s.started = plan.configIds := by
  rw [h.started_eq, hdone.2.1]
  exact List.take_of_length_le List.length_range'.le

theorem Inv.allSucceeded_of_done (h : Inv plan s) (hdone : s.Done plan) : s.AllSucceeded plan := by
  have hstarted := h.started_of_done hdone
  refine ⟨hstarted, fun config hmem => ?_⟩
  have hnone (pid : Nat) : ¬ (s.jobs config).Listed pid := by
    rw [← h.children, AssocMap.get_eq_none_iff.mpr]
    · nofun
    · rw [List.length_eq_zero_iff.mp hdone.2.2]
      exact List.not_mem_nil
  cases hjob : s.jobs config with
  | unstarted =>
      rw [h.unstarted_iff, hstarted] at hjob
      exact absurd hmem hjob
  | running pid => exact absurd (.inl hjob) (hnone pid)
  | ended pid success => exact absurd (.inr ⟨success, hjob⟩) (hnone pid)
  | reaped success =>
      cases success with
      | true => rfl
      | false => exact absurd ⟨config, hjob⟩ hdone.1

theorem Inv.not_allSucceeded_of_failed (h : Inv plan s) (hfailed : s.Failed) :
    ¬ s.AllSucceeded plan := by
  rintro ⟨-, hall⟩
  obtain ⟨config, hjob⟩ := hfailed
  have hout := hall config (h.mem_configIds (by rw [hjob]; nofun))
  rw [hjob] at hout
  cases hout

theorem Inv.exit_zero_iff (h : Inv plan s) {status : Nat} (hphase : s.phase = .exited status) :
    (status = 0 → s.AllSucceeded plan)
      ∧ (s.signalled = false → s.AllSucceeded plan → status = 0) := by
  have hok := h.phase
  unfold PhaseOk at hok
  rw [hphase] at hok
  refine ⟨fun hzero => h.allSucceeded_of_done (hok.1 hzero), fun hsignal hall => ?_⟩
  by_contra hne
  exact h.not_allSucceeded_of_failed (hok.2 hne hsignal) hall

theorem exit_ne_zero_of_childFailed (h : (system plan).Reachable s) (hfailed : s.ChildFailed)
    (hleads : (system plan).Leads s s') : s'.phase ≠ .exited 0 := by
  obtain ⟨config, hout⟩ := hfailed
  obtain ⟨hreach, hout'⟩ := hleads.persists (p := fun s => (s.jobs config).outcome = some false)
    (fun s a s' hs hp hstep => Step.outcome hstep (inv_of_reachable hs) hp) h hout
  intro hphase
  have hinv := inv_of_reachable hreach
  have hmem : config ∈ plan.configIds := hinv.mem_configIds fun hjob => by
    rw [hjob] at hout'
    cases hout'
  have hall := (((hinv.exit_zero_iff hphase).1 rfl).2 config hmem)
  rw [hout'] at hall
  cases hall

/-! ## The end -/

def Job.weight : Job → Nat
  | .unstarted => 5
  | .running _ => 4
  | .ended .. => 3
  | .reaped _ => 0

def Phase.rank : Phase → Nat
  | .outer => 4
  | .inner => 3
  | .waiting => 2
  | .cleaning _ | .untrapped => 1
  | .exited _ => 0

/-- What is left to do. A round of the loop reaps a child, which is worth
more than the phases of the round. -/
def potential (plan : BuildPlan) (s : Scheduler) : Nat :=
  (plan.configIds.map fun config => (s.jobs config).weight).sum + s.phase.rank

theorem sum_weight_update {l : List Nat} {config d : Nat} {jobs : Nat → Job} {job : Job}
    (hmem : config ∈ l) (hweight : job.weight + d ≤ (jobs config).weight) :
    (l.map fun c => (Function.update jobs config job c).weight).sum + d
      ≤ (l.map fun c => (jobs c).weight).sum := by
  have hle (c : Nat) : (Function.update jobs config job c).weight ≤ (jobs c).weight := by
    by_cases heq : c = config
    · rw [heq, Function.update_self]
      omega
    · rw [Function.update_of_ne heq]
  have hrest := List.sum_le_sum (l := l.erase config) fun c _ => hle c
  rw [← List.sum_map_erase _ hmem, ← List.sum_map_erase (fun c => (jobs c).weight) hmem,
    Function.update_self]
  omega

theorem potential_init (plan : BuildPlan) :
    potential plan .init = 5 * plan.configCount + 4 := by
  have hsum : (plan.configIds.map fun _ => 5).sum = 5 * plan.configCount := by
    rw [List.map_const', List.sum_replicate_nat, BuildPlan.configIds, List.length_range',
      Nat.mul_comm]
  exact congrArg (· + 4) hsum

theorem potential_update {config d : Nat} {job : Job} (hmem : config ∈ plan.configIds)
    (hjobs : s'.jobs = Function.update s.jobs config job)
    (hweight : job.weight + d ≤ (s.jobs config).weight)
    (hrank : s'.phase.rank < s.phase.rank + d) : potential plan s' < potential plan s := by
  have hsum := sum_weight_update hmem hweight
  unfold potential
  rw [hjobs]
  omega

theorem Step.potential_lt (h : Step plan s a s') (hinv : Inv plan s) :
    potential plan s' < potential plan s := by
  have hkept {phase : Phase} {signalled : Bool} (hrank : phase.rank < s.phase.rank) :
      potential plan { s with phase := phase, signalled := signalled } < potential plan s :=
    Nat.add_lt_add_left hrank _
  cases h with
  | enter hphase | leave hphase | full hphase | cleaned hphase | exit hphase =>
      refine hkept ?_
      rw [hphase]
      simp [Phase.rank]
  | start _ _ hconfig =>
      have hjob := hinv.unstarted_of_getElem hconfig
      refine potential_update (d := 1) (configIds_getElem hconfig).2.2 rfl ?_ (Nat.lt_succ_self _)
      rw [hjob]
      rfl
  | @reap pid config success hphase _ hjob =>
      have hmem : config ∈ plan.configIds := hinv.mem_configIds (by rw [hjob]; nofun)
      refine potential_update (d := 3) hmem rfl ?_ ?_
      · rw [hjob]
        rfl
      · rw [hphase]
        cases success <;> simp [Phase.rank]
  | @ends pid config success hjob =>
      have hmem : config ∈ plan.configIds := hinv.mem_configIds (by rw [hjob]; nofun)
      refine potential_update (d := 1) hmem rfl ?_ (Nat.lt_succ_self _)
      rw [hjob]
      rfl
  | trapped hphase =>
      refine hkept ?_
      rcases hphase with hphase | hphase | hphase <;> rw [hphase] <;> simp [Phase.rank]
  | killed hphase =>
      refine hkept ?_
      rcases hphase with ⟨old, hphase⟩ | hphase <;> rw [hphase] <;> exact Nat.one_pos

/-- Every run comes to an end. -/
theorem length_run_le {steps : List (Scheduler × Action)} (h : (system plan).Run steps s) :
    steps.length ≤ 5 * plan.configCount + 4 := by
  have hbound := h.length_add_le (m := potential plan) (n := 5 * plan.configCount + 4) ?_ ?_
  · exact Nat.le_trans (Nat.le_add_right _ _) hbound
  · rintro s rfl
    exact (potential_init plan).le
  · exact fun s a s' hs hstep => Step.potential_lt hstep (inv_of_reachable hs)

/-- Whoever is listed runs, or has ended. -/
theorem Inv.ended_or_step (h : Inv plan s) {pid config : Nat}
    (hget : s.buildChildren.get pid = some config) :
    (∃ success, s.jobs config = .ended pid success) ∨ ∃ s', Step plan s .child s' := by
  rcases (h.children pid config).mp hget with hjob | hjob
  · exact .inr ⟨_, @Step.ends _ _ _ _ true hjob⟩
  · exact .inl hjob

/-- It does not end before the script does. -/
theorem Inv.progress (h : Inv plan s) (hexit : ∀ status, s.phase ≠ .exited status) :
    ∃ a s', a ≠ .signal ∧ Step plan s a s' := by
  have hok := h.phase
  unfold PhaseOk at hok
  cases hphase : s.phase with
  | outer =>
      by_cases hmore : s.nextConfig < plan.configCount ∨ 0 < s.size
      · exact ⟨.script, _, nofun, .enter hphase hmore⟩
      · exact ⟨.script, _, nofun, .leave hphase hmore⟩
  | inner =>
      by_cases hroom : s.nextConfig < plan.configCount ∧ s.size < plan.maxConfigBuilds
      · have hlt : s.nextConfig < plan.configIds.length := hroom.1.trans_eq List.length_range'.symm
        obtain ⟨pid, hpid⟩ := s.buildChildren.exists_get_eq_none
        exact ⟨.script, _, nofun, .start hphase hroom (List.getElem?_eq_getElem hlt) hpid⟩
      · exact ⟨.script, _, nofun, .full hphase hroom⟩
  | waiting =>
      rw [hphase] at hok
      obtain ⟨pid, hpid⟩ := List.exists_mem_of_length_pos hok.2
      obtain ⟨config, hget⟩ := Option.isSome_iff_exists.mp (AssocMap.get_isSome_iff.mpr hpid)
      rcases h.ended_or_step hget with ⟨success, hjob⟩ | ⟨s', hstep⟩
      · exact ⟨.script, _, nofun, .reap hphase hget hjob⟩
      · exact ⟨.child, s', nofun, hstep⟩
  | cleaning status =>
      by_cases hall : ∀ pid config, s.buildChildren.get pid = some config →
          ∃ success, s.jobs config = .ended pid success
      · exact ⟨.script, _, nofun, .cleaned hphase hall⟩
      · push Not at hall
        obtain ⟨pid, config, hget, hnot⟩ := hall
        rcases h.ended_or_step hget with ⟨success, hjob⟩ | ⟨s', hstep⟩
        · exact absurd hjob (hnot success)
        · exact ⟨.child, s', nofun, hstep⟩
  | untrapped => exact ⟨.script, _, nofun, .exit hphase⟩
  | exited status => exact absurd hphase (hexit status)

/-! ## The whole -/

/-- All profiles are built by a bounded number of children, in order. A
failure that `wait -n` has reported is the last thing before the cleanup; a
failure that it has not reported only keeps the script from succeeding. The
script comes to its end, and a status of zero means that all was built. -/
theorem build_scheduler (plan : BuildPlan) {s : Scheduler} (h : (system plan).Reachable s) :
    runningChildren plan s ≤ max 1 (min plan.configCount (plan.availableCores / plan.jobs)) ∧
    runningChildren plan s * plan.jobs ≤ max plan.availableCores plan.jobs ∧
    s.started = plan.configIds.take s.nextConfig ∧
    s.started.Pairwise (· < ·) ∧
    (s.Failed → ∀ s', (system plan).Leads s s' →
      s'.started = s.started ∧ ∀ status, s'.phase = .exited status → status ≠ 0) ∧
    (s.ChildFailed → ∀ s', (system plan).Leads s s' → s'.phase ≠ .exited 0) ∧
    (∀ status, s.phase = .exited status →
      (status = 0 → s.AllSucceeded plan) ∧
        (s.signalled = false → s.AllSucceeded plan → status = 0)) ∧
    (¬ s.Failed → s.signalled = false → ∀ pid config,
      s.buildChildren.get pid = some config ↔
        config ∈ s.started ∧ (s.jobs config).Listed pid) ∧
    (∀ steps, (system plan).Run steps s → steps.length ≤ 5 * plan.configCount + 4) ∧
    ((∀ status, s.phase ≠ .exited status) →
      ∃ a s', a ≠ .signal ∧ (system plan).step s a s') := by
  have hinv := inv_of_reachable h
  have hrun := hinv.running_le
  refine ⟨maxConfigBuilds_eq plan ▸ hrun, ?_, hinv.started_eq, hinv.pairwise_started, ?_, ?_,
    fun status hphase => hinv.exit_zero_iff hphase, ?_, fun steps hsteps => length_run_le hsteps,
    hinv.progress⟩
  · exact (Nat.mul_le_mul_right _ hrun).trans (maxConfigBuilds_mul_le plan)
  · intro hfailed s' hleads
    obtain ⟨hreach, hfailed', hstarted⟩ := failed_leads h hfailed hleads
    refine ⟨hstarted, ?_⟩
    rintro status hphase rfl
    have hinv' := inv_of_reachable hreach
    exact hinv'.not_allSucceeded_of_failed hfailed' ((hinv'.exit_zero_iff hphase).1 rfl)
  · exact fun hfailed s' hleads => exit_ne_zero_of_childFailed h hfailed hleads
  · intro _ _ pid config
    rw [hinv.children]
    refine ⟨fun hlisted => ⟨?_, hlisted⟩, fun hlisted => hlisted.2⟩
    by_contra hnot
    rw [(hinv.unstarted_iff config).mpr hnot] at hlisted
    exact not_listed_unstarted pid hlisted

def demoThree : BuildPlan := ⟨3, 2, 1, by decide, by decide, by decide⟩

/-- Three configurations on two places; the second child ends first, and
makes room for the third. -/
theorem build_scheduler_demo : ∃ s : Scheduler, s.phase = .exited 0 ∧ s.started = [1, 2, 3] ∧
    s.AllSucceeded demoThree := by
  have h : (system demoThree).Reachable _ := .start rfl
  have h := h.step (.enter rfl (by decide))
  have h := h.step (@Step.start _ _ 7 1 rfl (by decide) rfl rfl)
  have h := h.step (@Step.start _ _ 8 2 rfl (by decide) rfl rfl)
  have h := h.step (.full rfl (by decide))
  have h := h.step (@Step.ends _ _ 8 2 true rfl)
  have h := h.step (@Step.reap _ _ 8 2 true rfl rfl rfl)
  have h := h.step (.enter rfl (by decide))
  have h := h.step (@Step.start _ _ 9 3 rfl (by decide) rfl rfl)
  have h := h.step (.full rfl (by decide))
  have h := h.step (@Step.ends _ _ 9 3 true rfl)
  have h := h.step (@Step.ends _ _ 7 1 true rfl)
  have h := h.step (@Step.reap _ _ 7 1 true rfl rfl rfl)
  have h := h.step (.enter rfl (by decide))
  have h := h.step (.full rfl (by decide))
  have h := h.step (@Step.reap _ _ 9 3 true rfl rfl rfl)
  have h := h.step (.leave rfl (by decide))
  have h := h.step (.exit rfl)
  have hbuild := build_scheduler _ h
  exact ⟨_, rfl, hbuild.2.2.1, (hbuild.2.2.2.2.2.2.1 0 rfl).1 rfl⟩

/-- With two places, a child that has failed unnoticed does not keep the
place of the other one from being filled again. -/
theorem started_after_failure : ∃ s a s',
    (system ⟨3, 2, 1, by decide, by decide, by decide⟩).Reachable s ∧ s.ChildFailed ∧
      (system ⟨3, 2, 1, by decide, by decide, by decide⟩).step s a s' ∧
      s.started = [1, 2] ∧ s'.started = [1, 2, 3] := by
  have h : (system ⟨3, 2, 1, by decide, by decide, by decide⟩).Reachable _ := .start rfl
  have h := h.step (.enter rfl (by decide))
  have h := h.step (@Step.start _ _ 7 1 rfl (by decide) rfl rfl)
  have h := h.step (@Step.start _ _ 8 2 rfl (by decide) rfl rfl)
  have h := h.step (.full rfl (by decide))
  have h := h.step (@Step.ends _ _ 7 1 true rfl)
  have h := h.step (@Step.ends _ _ 8 2 false rfl)
  have h := h.step (@Step.reap _ _ 7 1 true rfl rfl rfl)
  have h := h.step (.enter rfl (by decide))
  exact ⟨_, _, _, h, ⟨2, rfl⟩, @Step.start _ _ 9 3 rfl (by decide) rfl rfl, rfl, rfl⟩

end LighttpdFuzz.BuildScheduler

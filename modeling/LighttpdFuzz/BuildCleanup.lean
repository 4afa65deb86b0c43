import LighttpdFuzz.BuildScheduler
import LighttpdFuzz.ProcessGroups

/-!
# The cleanup of a build

`cleanup_build_children` asks the builds that are left to end, forces them
after ten seconds, and waits for each. The scheduler makes one step of it,
which it can only make when all children have ended; `build_cleanup` says
that this is where the script comes to, in whatever way the children end
meanwhile, and that no process group but those of the children in the
table has got a signal.
-/

namespace LighttpdFuzz.BuildScheduler

open Script ProcessGroups

abbrev Builds := Processes Unit

/-- `cleanup_build_children`, on the keys of `build_children` in any order. -/
def cleanupBuildChildren (pids : List Nat) : Script Builds :=
  seq (forEach pids ask) (seq (waitForGroups 100 pids) (seq (forEach pids forceIfAlive)
    (forEach pids waitFor)))

/-! ## The script -/

section Cleanup

variable {pids : List Nat} {pid : Nat}

theorem quiet_self : ∀ s s' : Builds, Quiet s s' → Quiet s s' := fun _ _ h => h

theorem stable_endedWith (pid status : Nat) :
    Stable Quiet fun s : Builds => s.EndedWith pid status :=
  fun _ _ h hs => (h.phase pid).ended hs

theorem stable_hasEnded (pid : Nat) : Stable Quiet fun s : Builds => s.hasEnded pid = true := by
  intro s s' h hs
  obtain ⟨status, hstatus⟩ := Processes.hasEnded_iff.mp hs
  exact Processes.hasEnded_iff.mpr ⟨status, stable_endedWith pid status s s' h hstatus⟩

/-- The actions of the script, on the children. -/
theorem phase_of_isAction {f : Builds → Builds}
    (hf : (cleanupBuildChildren pids).IsAction f) (s : Builds) (pid : Nat) :
    PhaseStep (s.phase pid) ((f s).phase pid) := by
  rcases hf with hf | hf | hf | hf
  · obtain ⟨pid', -, rfl⟩ := isAction_forEach.mp hf
    rw [Processes.phase_send]
    exact .same
  · rcases isAction_upTo hf with rfl | hf
    · exact .same
    · obtain ⟨pid', -, rfl⟩ := isAction_forEach.mp hf
      rw [Processes.phase_noteAlive]
      exact .same
  · obtain ⟨pid', -, rfl | hf⟩ := isAction_forEach.mp hf
    · rw [Processes.phase_send]
      exact .same
    · cases hf
  · obtain ⟨pid', -, hf | rfl⟩ := isAction_forEach.mp hf
    · cases hf
    · exact phaseStep_reap pid' pid s

/-- A status is not lost. -/
theorem cleanup_endedWith (pid status : Nat) :
    Triple Quiet (fun s : Builds => s.EndedWith pid status) (cleanupBuildChildren pids)
      fun s => s.EndedWith pid status :=
  .keeps (stable_endedWith pid status) fun _ hf s hs => (phase_of_isAction hf s pid).ended hs

theorem waitFor_spec (pid : Nat) :
    Triple Quiet (fun _ : Builds => True) (waitFor pid) fun s => s.hasEnded pid = true := by
  refine .seq .true (stable_hasEnded pid) (.await .true (stable_hasEnded pid)
    fun s _ htest => htest) (.act (stable_hasEnded pid) (stable_hasEnded pid) fun s hs => ?_)
  obtain ⟨status, hstatus⟩ := Processes.hasEnded_iff.mp hs
  exact Processes.hasEnded_iff.mpr ⟨status, (phaseStep_reap pid pid s).ended hstatus⟩

/-- In the end nothing is left, or it has been forced, in order. -/
theorem cleanup_groups : Triple Quiet InOrder (cleanupBuildChildren pids) fun s =>
    InOrder s ∧ ∀ pid ∈ pids, Forced pid s := by
  have horder : Stable Quiet (InOrder : Builds → Prop) := stable_inOrder quiet_self
  have hasked := horder.and (stable_allTold quiet_self .term pids)
  have hforced := horder.and (stable_allTold quiet_self .kill pids)
  have hwait : SilentScript (ξ := Unit) (waitForGroups 100 pids) :=
    silentScript_waitForGroups 100 pids
  have hcollect : SilentScript (ξ := Unit) (forEach pids waitFor) :=
    .forEach silentScript_waitFor
  refine .seq horder hforced (askEach quiet_self tameScript_ask (ask_spec quiet_self)) ?_
  refine .seq hasked hforced (.and (hwait.keeps_inOrder quiet_self)
    (hwait.tame.keeps_allTold quiet_self .term pids)) ?_
  refine .seq hasked hforced
    (forceEach quiet_self tameScript_forceIfAlive (forceIfAlive_spec quiet_self)) ?_
  exact .and (hcollect.keeps_inOrder quiet_self) (hcollect.tame.keeps_allTold quiet_self .kill pids)

/-- All children have ended. -/
theorem cleanup_ended : Triple Quiet (fun _ : Builds => True) (cleanupBuildChildren pids)
    fun s => ∀ pid ∈ pids, s.hasEnded pid = true := by
  have hended : Stable Quiet fun s : Builds => ∀ pid ∈ pids, s.hasEnded pid = true :=
    .forall fun pid => .imp fun _ => stable_hasEnded pid
  have hbefore : ∀ c : Script Builds, Triple Quiet (fun _ => True) c fun _ => True :=
    fun _ _ _ _ _ => trivial
  refine .seq .true hended (hbefore _) (.seq .true hended (hbefore _)
    (.seq .true hended (hbefore _) ?_))
  refine Triple.weaken (.each .true (fun pid _ => stable_hasEnded pid)
    (fun pid _ => (waitFor_spec pid).weaken (fun _ _ => trivial) fun _ hs => ⟨trivial, hs⟩)
    fun pid _ pid' _ => ?_) (fun _ hs => hs) fun _ hs => hs.2
  refine Triple.weaken (.keeps (stable_hasEnded pid) fun f hf s hs => ?_) (fun _ hs => hs.2)
    fun _ hs => hs
  obtain ⟨status, hstatus⟩ := Processes.hasEnded_iff.mp hs
  rcases hf with hf | rfl
  · cases hf
  · exact Processes.hasEnded_iff.mpr ⟨status, (phaseStep_reap pid' pid s).ended hstatus⟩

/-- Only the groups of the children get signals. -/
theorem cleanup_signals : Triple Quiet
    (fun s : Builds => ∀ e ∈ s.signals, ∃ pid ∈ pids, e.2 = .group pid)
    (cleanupBuildChildren pids) fun s => ∀ e ∈ s.signals, ∃ pid ∈ pids, e.2 = .group pid := by
  refine .keeps (fun s s' h hs => ?_) fun f hf s hs => ?_
  · rw [h.signals]
    exact hs
  · have hsend : ∀ signal, ∀ pid ∈ pids, ∀ e ∈ (s.send signal (.group pid)).signals,
        ∃ pid ∈ pids, e.2 = .group pid := by
      intro signal pid hpid e he
      unfold Processes.send at he
      split at he
      · rcases List.mem_append.mp he with he | he
        · exact hs e he
        · rw [List.mem_singleton.mp he]
          exact ⟨pid, hpid, rfl⟩
      · exact hs e he
    rcases hf with hf | hf | hf | hf
    · obtain ⟨pid, hpid, rfl⟩ := isAction_forEach.mp hf
      exact hsend .term pid hpid
    · rw [(silentScript_waitForGroups 100 pids).signals f hf s]
      exact hs
    · obtain ⟨pid, hpid, rfl | hf⟩ := isAction_forEach.mp hf
      · exact hsend .kill pid hpid
      · cases hf
    · rw [(SilentScript.forEach silentScript_waitFor).signals f hf s]
      exact hs

end Cleanup

/-! ## The step of the scheduler -/

/-- The children in the table are as the system has them. -/
def Matches (s : Scheduler) (processes : Builds) : Prop :=
  ∀ pid config, s.buildChildren.get pid = some config →
    s.jobs config = .running pid ∧ processes.phase pid = .running
    ∨ ∃ status, s.jobs config = .ended pid (status == 0) ∧ processes.EndedWith pid status

/-- Children end, and nothing else happens. -/
inductive Endings (plan : BuildPlan) (s : Scheduler) : Scheduler → Prop
  | refl : Endings plan s s
  | step {s' s'' : Scheduler} : Endings plan s s' → Step plan s' .child s'' → Endings plan s s''

/-- On the way to what the script finds in the end: some children are
still listed as running. -/
structure Between (plan : BuildPlan) (s : Scheduler) (processes : Builds) (s' : Scheduler) :
    Prop where
  endings : Endings plan s s'
  children : s'.buildChildren = s.buildChildren
  phase : s'.phase = s.phase
  jobs : ∀ pid config, s.buildChildren.get pid = some config →
    s'.jobs config = .running pid
    ∨ ∃ status, s'.jobs config = .ended pid (status == 0) ∧ processes.EndedWith pid status

section Refinement

variable {plan : BuildPlan} {s s' : Scheduler} {processes : Builds}

/-- One more child is listed as ended. -/
theorem Between.ends (h : Between plan s processes s') {pid config status : Nat}
    (hconfig : s.buildChildren.get pid = some config) (hrunning : s'.jobs config = .running pid)
    (hended : processes.EndedWith pid status) :
    Between plan s processes
      { s' with jobs := Function.update s'.jobs config (.ended pid (status == 0)) } := by
  refine ⟨h.endings.step (.ends hrunning), h.children, h.phase, fun pid' config' hconfig' => ?_⟩
  by_cases heq : config' = config
  · subst heq
    simp only [Function.update_self]
    rcases h.jobs pid' config' hconfig' with hrunning' | ⟨status', hended', -⟩
    · obtain rfl := Job.running.inj (hrunning.symm.trans hrunning')
      exact .inr ⟨status, rfl, hended⟩
    · rw [hrunning] at hended'
      cases hended'
  · simp only [Function.update_of_ne heq]
    exact h.jobs pid' config' hconfig'

/-- All children in a list come to their end. -/
theorem exists_between (h : Between plan s processes s) : ∀ pids : List Nat,
    (∀ pid ∈ pids, (s.buildChildren.get pid).isSome ∧ processes.hasEnded pid = true) →
    ∃ s', Between plan s processes s' ∧ ∀ pid ∈ pids, ∀ config,
      s.buildChildren.get pid = some config → s'.jobs config ≠ .running pid := by
  intro pids
  induction pids with
  | nil => exact fun _ => ⟨s, h, List.forall_mem_nil _⟩
  | cons pid pids ih =>
      intro hall
      obtain ⟨⟨hlisted, hended⟩, hrest⟩ := List.forall_mem_cons.mp hall
      obtain ⟨s', hs', hdone⟩ := ih hrest
      obtain ⟨config, hconfig⟩ := Option.isSome_iff_exists.mp hlisted
      obtain ⟨status, hstatus⟩ := Processes.hasEnded_iff.mp hended
      by_cases hrunning : s'.jobs config = .running pid
      · refine ⟨_, hs'.ends hconfig hrunning hstatus, List.forall_mem_cons.mpr ⟨?_, ?_⟩⟩
        · intro config' hconfig'
          obtain rfl := Option.some.inj (hconfig.symm.trans hconfig')
          simp only [Function.update_self]
          exact Job.noConfusion
        · intro pid' hpid' config' hconfig'
          by_cases heq : config' = config
          · simp only [heq, Function.update_self]
            exact Job.noConfusion
          · simp only [Function.update_of_ne heq]
            exact hdone pid' hpid' config' hconfig'
      · refine ⟨s', hs', List.forall_mem_cons.mpr ⟨fun config' hconfig' => ?_, hdone⟩⟩
        obtain rfl := Option.some.inj (hconfig.symm.trans hconfig')
        exact hrunning

/-- However the children end while `cleanup_build_children` runs: it comes
to where the scheduler makes its step, each process group is gone or has
been forced, none was forced before it had been asked, and only groups of
children in the table got signals. -/
theorem build_cleanup {status : Nat} {pids : List Nat} {t : Builds}
    (hphase : s.phase = .cleaning status)
    (hpids : ∀ pid, pid ∈ pids ↔ (s.buildChildren.get pid).isSome)
    (hmatches : Matches s processes) (hsignals : processes.signals = [])
    (hexec : Exec Quiet (cleanupBuildChildren pids) processes t) :
    (∃ s', Endings plan s s' ∧ Matches s' t
      ∧ Step plan s' .script { s' with phase := .exited status })
    ∧ (∀ pid ∈ pids, t.alive pid = false ∨ (.kill, .group pid) ∈ t.signals)
    ∧ (∀ before after pid, t.signals = before ++ (.kill, .group pid) :: after →
      (.term, .group pid) ∈ before)
    ∧ ∀ e ∈ t.signals, ∃ pid config, e.2 = .group pid
      ∧ s.buildChildren.get pid = some config := by
  have hended := cleanup_ended processes t trivial hexec
  have horder : InOrder processes := by
    intro before after pid heq
    rw [hsignals] at heq
    cases List.append_ne_nil_of_right_ne_nil before (List.cons_ne_nil _ after) heq.symm
  obtain ⟨hinOrder, hforced⟩ := cleanup_groups processes t horder hexec
  have hnone : ∀ e ∈ processes.signals, ∃ pid ∈ pids, e.2 = .group pid := by
    rw [hsignals]
    exact List.forall_mem_nil _
  refine ⟨?_, fun pid hpid => ?_, hinOrder, fun e he => ?_⟩
  · have hstart : Between plan s t s := by
      refine ⟨.refl, rfl, rfl, fun pid config hconfig => ?_⟩
      rcases hmatches pid config hconfig with ⟨hrunning, -⟩ | ⟨status, hjob, hstatus⟩
      · exact .inl hrunning
      · exact .inr ⟨status, hjob, cleanup_endedWith pid status processes t hstatus hexec⟩
    obtain ⟨s', hs', hdone⟩ := exists_between hstart pids fun pid hpid =>
      ⟨(hpids pid).mp hpid, hended pid hpid⟩
    have hall : ∀ pid config, s'.buildChildren.get pid = some config →
        ∃ status, s'.jobs config = .ended pid (status == 0) ∧ t.EndedWith pid status := by
      intro pid config hconfig
      rw [hs'.children] at hconfig
      have hpid := (hpids pid).mpr (Option.isSome_iff_exists.mpr ⟨config, hconfig⟩)
      exact (hs'.jobs pid config hconfig).resolve_left (hdone pid hpid config hconfig)
    refine ⟨s', hs'.endings, fun pid config hconfig => .inr (hall pid config hconfig), ?_⟩
    refine .cleaned (hs'.phase.trans hphase) fun pid config hconfig => ?_
    obtain ⟨status, hjob, -⟩ := hall pid config hconfig
    exact ⟨_, hjob⟩
  · cases halive : t.alive pid with
    | false => exact .inl rfl
    | true => exact .inr (hforced pid hpid halive)
  · obtain ⟨pid, hpid, htarget⟩ := cleanup_signals processes t hnone hexec e he
    obtain ⟨config, hconfig⟩ := Option.isSome_iff_exists.mp ((hpids pid).mp hpid)
    exact ⟨pid, config, htarget, hconfig⟩

end Refinement

/-! ## Two builds -/

def demoPlan : BuildPlan := ⟨2, 2, 1, Nat.two_pos, Nat.two_pos, Nat.one_pos⟩

/-- The build of the first configuration has failed. -/
def demoScheduler : Scheduler where
  phase := .cleaning 1
  nextConfig := 2
  buildChildren := .set .empty 8 2
  jobs config := if config = 1 then .reaped false else if config = 2 then .running 8
    else .unstarted
  started := [1, 2]
  signalled := false

def demoBuilds (phase : ChildPhase) (signals : List (Signal × Target)) : Builds where
  running := true
  phase _ := phase
  others _ := false
  signals := signals
  extra := ()

def demoSignals : List (Signal × Target) := [(.term, .group 8), (.kill, .group 8)]

/-- Nothing changes while the script waits. -/
theorem demo_waits (signals : List (Signal × Target)) : ∀ n,
    (waitForGroups n [8]).run (demoBuilds .running signals) = some (demoBuilds .running signals)
  | 0 => rfl
  | n + 1 => demo_waits signals n

/-- The second one does not end when it is asked. -/
theorem demo_forced : ∃ t, Exec Quiet (cleanupBuildChildren [8]) (demoBuilds .running []) t
    ∧ t.signals = demoSignals := by
  have hquiet : Quiet (demoBuilds .running demoSignals)
      (demoBuilds (.ended 137 false) demoSignals) :=
    ⟨rfl, rfl, fun _ => .ends, fun _ h => by cases h⟩
  have hasked : Exec Quiet (forEach [8] ask) (demoBuilds .running [])
      (demoBuilds .running [(.term, .group 8)]) := exec_of_run rfl
  have hpolled : Exec Quiet (waitForGroups 100 [8]) (demoBuilds .running [(.term, .group 8)])
      (demoBuilds .running [(.term, .group 8)]) := exec_of_run (demo_waits _ 100)
  have hforced : Exec Quiet (forEach [8] forceIfAlive) (demoBuilds .running [(.term, .group 8)])
      (demoBuilds .running demoSignals) := exec_of_run rfl
  obtain ⟨t, hrun, hsignals⟩ : ∃ t, (forEach [8] waitFor).run
      (demoBuilds (.ended 137 false) demoSignals) = some t ∧ t.signals = demoSignals :=
    ⟨_, rfl, rfl⟩
  exact ⟨t, .seq hasked (.seq hpolled (.seq hforced (.before hquiet (exec_of_run hrun)))), hsignals⟩

theorem build_cleanup_demo : ∃ s' t, Endings demoPlan demoScheduler s' ∧ Matches s' t
    ∧ Step demoPlan s' .script { s' with phase := .exited 1 } ∧ t.signals = demoSignals := by
  obtain ⟨t, hexec, hsignals⟩ := demo_forced
  have hget : ∀ pid, demoScheduler.buildChildren.get pid = if pid = 8 then some 2 else none :=
    fun pid => AssocMap.get_set _ _ _ _
  obtain ⟨⟨s', hendings, hmatches, hstep⟩, -⟩ := build_cleanup rfl (fun pid => by rw [hget]; simp)
    (fun pid config h => by
      rw [hget] at h
      split at h
      · next heq =>
          obtain rfl := Option.some.inj h
          exact .inl ⟨by rw [heq]; rfl, rfl⟩
      · cases h) rfl hexec
  exact ⟨s', t, hendings, hmatches, hstep, hsignals⟩

end LighttpdFuzz.BuildScheduler

import LighttpdFuzz.Supervisor

/-!
# The bookkeeping of the supervisor

Seen from outside, a configuration is not yet launched, running, down
(its child is out of the tables and its lock is still held) or given up.
`Inv` says what the tables of the script have for each of these. It is
kept by the three things that happen to a configuration: its child is
forgotten (`Inv.forget`), it is launched (`Inv.launch`), it is given up
(`Inv.giveUp`). At the head of the monitoring loop no configuration is
down, so the tables describe the running children and nothing else
(`supervisor_bookkeeping`).
-/

namespace LighttpdFuzz

/-! ## Prefixes -/

/-- Launches with the same prefix are the same launch. -/
theorem sanitizerPrefix_injective (campaign : Campaign) {c c' n n' : Nat}
    (h : campaign.sanitizerPrefix c n = campaign.sanitizerPrefix c' n') : c = c' ∧ n = n' := by
  have hdot : ∀ c n, campaign.sanitizerPrefix c n
      = (campaign.directory ++ "/logs/asan".toList) ++ (Text.ofNat c ++ '.' ::
        ("log.".toList ++ campaign.campaignId ++ "-".toList ++ Text.ofNat n)) := by
    intro c n
    simp only [Campaign.sanitizerPrefix, List.append_assoc]
    rfl
  rw [hdot, hdot] at h
  obtain ⟨hc, hn⟩ := Text.digits_append_inj (by decide) (fun _ => Text.isDigit_ofNat)
    (fun _ => Text.isDigit_ofNat) (List.append_cancel_left h)
  exact ⟨Text.ofNat_injective hc, Text.ofNat_injective (List.append_cancel_left hn)⟩

namespace Supervisor

/-! ## Tables -/

/-- The keys of the map are the listed children. -/
def SameKeys {ν : Type} (m : AssocMap Nat ν) (pids : List Nat) : Prop :=
  ∀ pid, pid ∈ m.keys ↔ pid ∈ pids

theorem SameKeys.set {ν : Type} {m : AssocMap Nat ν} {pids : List Nat} (h : SameKeys m pids)
    (pid : Nat) (v : ν) : SameKeys (m.set pid v) (pids ++ [pid]) := by
  intro pid'
  rw [← AssocMap.get_isSome_iff, AssocMap.get_set, List.mem_append, List.mem_singleton]
  by_cases heq : pid' = pid
  · simp [heq]
  · rw [if_neg heq, AssocMap.get_isSome_iff, h pid']
    simp [heq]

theorem SameKeys.erase {ν : Type} {m : AssocMap Nat ν} {a : SparseArray Nat} {index pid : Nat}
    (h : SameKeys m a.values) (hnodup : a.values.Nodup) (hindex : a.get index = some pid) :
    SameKeys (m.erase pid) (a.unset index).values := by
  intro pid'
  rw [AssocMap.keys_erase, List.mem_filter, decide_eq_true_iff,
    SparseArray.mem_values_unset hnodup hindex, h pid']

/-- The children are distinct, and every table has an entry for each. -/
structure Tables (s : Supervisor) : Prop where
  distinct : s.fuzzerPids.values.Nodup
  configs : SameKeys s.fuzzerConfigs s.fuzzerPids.values
  pidFiles : SameKeys s.serverPidFiles s.fuzzerPids.values
  startedAt : SameKeys s.fuzzerStartedAt s.fuzzerPids.values
  stopSignals : SameKeys s.fuzzerStopSignals s.fuzzerPids.values
  sanitizerPrefixes : SameKeys s.fuzzerSanitizerPrefixes s.fuzzerPids.values

theorem Tables.forget {s : Supervisor} (h : Tables s) {index pid : Nat}
    (hindex : s.fuzzerPids.get index = some pid) : Tables (s.forget index pid) where
  distinct := SparseArray.nodup_values_unset h.distinct index
  configs := h.configs.erase h.distinct hindex
  pidFiles := h.pidFiles.erase h.distinct hindex
  startedAt := h.startedAt.erase h.distinct hindex
  stopSignals := h.stopSignals.erase h.distinct hindex
  sanitizerPrefixes := h.sanitizerPrefixes.erase h.distinct hindex

theorem values_launch (campaign : Campaign) (s : Supervisor) (config : Nat)
    (attempt : LaunchAttempt) :
    (launch campaign s config attempt).fuzzerPids.values
      = s.fuzzerPids.values ++ [attempt.pid] :=
  SparseArray.values_push _ _

theorem Tables.launch {s : Supervisor} (h : Tables s) (campaign : Campaign) (config : Nat)
    {attempt : LaunchAttempt} (hpid : attempt.pid ∉ s.fuzzerPids.values) :
    Tables (launch campaign s config attempt) where
  distinct := by
    rw [values_launch]
    exact List.nodup_append.mpr ⟨h.distinct, List.nodup_singleton _, by
      rintro pid hmem _ hpid' rfl
      exact hpid (List.mem_singleton.mp hpid' ▸ hmem)⟩
  configs := values_launch campaign s config attempt ▸ h.configs.set _ _
  pidFiles := values_launch campaign s config attempt ▸ h.pidFiles.set _ _
  startedAt := values_launch campaign s config attempt ▸ h.startedAt.set _ _
  stopSignals := values_launch campaign s config attempt ▸ h.stopSignals.set _ _
  sanitizerPrefixes := values_launch campaign s config attempt ▸ h.sanitizerPrefixes.set _ _

/-! ## The invariant -/

inductive ConfigStatus where
  | absent | down | running | givenUp
  deriving DecidableEq, Repr

/-- The prefix of a launch. -/
def SupervisorEvent.sanitizerPrefix? : SupervisorEvent → Option Text
  | .launched _ _ sanitizerPrefix => some sanitizerPrefix
  | .gaveUp _ => none

/-- The second event does not launch what the first gave up. -/
def NoRelaunch (first second : SupervisorEvent) : Prop :=
  ∀ config, first = .gaveUp config → ∀ pid sanitizerPrefix,
    second ≠ .launched config pid sanitizerPrefix

/-- What the tables have for a configuration of each status. -/
structure Inv (campaign : Campaign) (status : Nat → ConfigStatus) (s : Supervisor) : Prop where
  tables : Tables s
  config_running : ∀ pid config, s.fuzzerConfigs.get pid = some config → status config = .running
  config_unique : ∀ pid pid' config, s.fuzzerConfigs.get pid = some config →
    s.fuzzerConfigs.get pid' = some config → pid = pid'
  running_config : ∀ config, status config = .running →
    ∃ pid, s.fuzzerConfigs.get pid = some config
  locked : ∀ config, (s.configLockFds.get config).isSome
    ↔ status config = .running ∨ status config = .down
  held : ∀ config fd, s.configLockFds.get config = some fd ↔ s.heldLocks.get fd = some config
  gaveUp : ∀ config, .gaveUp config ∈ s.history ↔ status config = .givenUp
  numbered : ∀ config pid sanitizerPrefix, .launched config pid sanitizerPrefix ∈ s.history →
    ∃ n ≤ (s.launchCounts.get config).getD 0, sanitizerPrefix = campaign.sanitizerPrefix config n
  prefixes : (s.history.filterMap SupervisorEvent.sanitizerPrefix?).Nodup
  order : s.history.Pairwise NoRelaunch

variable {campaign : Campaign} {status : Nat → ConfigStatus} {s : Supervisor}

theorem inv_init (campaign : Campaign) : Inv campaign (fun _ => .absent) .init where
  tables := ⟨List.nodup_nil, fun _ => Iff.rfl, fun _ => Iff.rfl, fun _ => Iff.rfl,
    fun _ => Iff.rfl, fun _ => Iff.rfl⟩
  config_running := nofun
  config_unique := nofun
  running_config := nofun
  locked := by
    intro config
    constructor
    · nofun
    · rintro (h | h) <;> cases h
  held := by
    intro config fd
    constructor <;> nofun
  gaveUp := by
    intro config
    constructor <;> nofun
  numbered := nofun
  prefixes := List.nodup_nil
  order := List.Pairwise.nil

/-- A configuration whose child is gone is down. -/
theorem Inv.forget (h : Inv campaign status s) {index pid config : Nat}
    (hindex : s.fuzzerPids.get index = some pid)
    (hconfig : s.fuzzerConfigs.get pid = some config) :
    Inv campaign (Function.update status config .down) (s.forget index pid) := by
  have hget : ∀ pid', (s.forget index pid).fuzzerConfigs.get pid'
      = if pid' = pid then none else s.fuzzerConfigs.get pid' := AssocMap.get_erase _ _
  have hrunning := h.config_running pid config hconfig
  have hother : ∀ {pid' config'}, (s.forget index pid).fuzzerConfigs.get pid' = some config' →
      s.fuzzerConfigs.get pid' = some config' ∧ config' ≠ config := by
    intro pid' config' hsome
    rw [hget] at hsome
    by_cases heq : pid' = pid
    · rw [if_pos heq] at hsome
      cases hsome
    · rw [if_neg heq] at hsome
      refine ⟨hsome, fun hc => heq ?_⟩
      exact h.config_unique pid' pid config (hc ▸ hsome) hconfig
  refine ⟨h.tables.forget hindex, ?_, ?_, ?_, ?_, h.held, ?_, h.numbered, h.prefixes, h.order⟩
  · intro pid' config' hsome
    obtain ⟨hold, hne⟩ := hother hsome
    rw [Function.update_of_ne hne]
    exact h.config_running pid' config' hold
  · intro pid₁ pid₂ config' h₁ h₂
    exact h.config_unique pid₁ pid₂ config' (hother h₁).1 (hother h₂).1
  · intro config' hstatus
    by_cases hc : config' = config
    · rw [hc, Function.update_self] at hstatus
      cases hstatus
    · rw [Function.update_of_ne hc] at hstatus
      obtain ⟨pid', hpid'⟩ := h.running_config config' hstatus
      have hne : pid' ≠ pid := by
        rintro rfl
        exact hc (Option.some.inj (hpid'.symm.trans hconfig))
      exact ⟨pid', by rw [hget, if_neg hne, hpid']⟩
  · intro config'
    rcases eq_or_ne config' config with rfl | hc
    · rw [Function.update_self]
      exact ⟨fun _ => Or.inr rfl, fun _ => (h.locked config').mpr (Or.inl hrunning)⟩
    · rw [Function.update_of_ne hc]
      exact h.locked config'
  · intro config'
    rcases eq_or_ne config' config with rfl | hc
    · rw [Function.update_self]
      refine (h.gaveUp config').trans ⟨fun hgiven => ?_, nofun⟩
      rw [hrunning] at hgiven
      cases hgiven
    · rw [Function.update_of_ne hc]
      exact h.gaveUp config'

/-- A lock is taken for a configuration that had none. -/
theorem Inv.acquire (h : Inv campaign status s) {config fd : Nat}
    (hstatus : status config = .absent) (hfd : s.heldLocks.get fd = none) :
    Inv campaign (Function.update status config .down)
      { s with
        heldLocks := s.heldLocks.set fd config
        configLockFds := s.configLockFds.set config fd } := by
  have hnone : s.configLockFds.get config = none := by
    rw [← Option.not_isSome_iff_eq_none, h.locked config, hstatus]
    rintro (h | h) <;> cases h
  refine ⟨⟨h.tables.distinct, h.tables.configs, h.tables.pidFiles, h.tables.startedAt,
    h.tables.stopSignals, h.tables.sanitizerPrefixes⟩, ?_, h.config_unique, ?_, ?_, ?_, ?_,
    h.numbered, h.prefixes, h.order⟩
  · intro pid config' hsome
    have hrunning := h.config_running pid config' hsome
    rw [Function.update_of_ne, hrunning]
    rintro rfl
    rw [hstatus] at hrunning
    cases hrunning
  · intro config' hrunning
    by_cases hc : config' = config
    · rw [hc, Function.update_self] at hrunning
      cases hrunning
    · rw [Function.update_of_ne hc] at hrunning
      exact h.running_config config' hrunning
  · intro config'
    rw [AssocMap.get_set]
    by_cases hc : config' = config
    · rw [hc, if_pos rfl, Function.update_self]
      exact ⟨fun _ => Or.inr rfl, fun _ => rfl⟩
    · rw [if_neg hc, Function.update_of_ne hc]
      exact h.locked config'
  · intro config' fd'
    rw [AssocMap.get_set, AssocMap.get_set]
    have hold := h.held config' fd'
    by_cases hc : config' = config
    · rw [if_pos hc]
      by_cases hf : fd' = fd
      · simp [hc, hf]
      · rw [if_neg hf, ← hold, hc, hnone]
        simp [Ne.symm hf]
    · rw [if_neg hc]
      by_cases hf : fd' = fd
      · rw [if_pos hf, hold, hf, hfd]
        simp [Ne.symm hc]
      · rw [if_neg hf]
        exact hold
  · intro config'
    rcases eq_or_ne config' config with rfl | hc
    · rw [Function.update_self]
      refine (h.gaveUp config').trans ⟨fun hgiven => ?_, nofun⟩
      rw [hstatus] at hgiven
      cases hgiven
    · rw [Function.update_of_ne hc]
      exact h.gaveUp config'

/-- A configuration that is down, and whose lock is held, is launched. -/
theorem Inv.launch (h : Inv campaign status s) {config : Nat} {attempt : LaunchAttempt}
    (hstatus : status config = .down) (hpid : attempt.pid ∉ s.fuzzerPids.values) :
    Inv campaign (Function.update status config .running) (launch campaign s config attempt) := by
  have hget : ∀ pid, (Supervisor.launch campaign s config attempt).fuzzerConfigs.get pid
      = if pid = attempt.pid then some config else s.fuzzerConfigs.get pid :=
    AssocMap.get_set _ _ _
  have hother : ∀ {pid config'}, s.fuzzerConfigs.get pid = some config' → config' ≠ config := by
    rintro pid config' hsome rfl
    have hrunning := h.config_running pid config' hsome
    rw [hstatus] at hrunning
    cases hrunning
  have hnew : s.fuzzerConfigs.get attempt.pid = none := by
    rw [AssocMap.get_eq_none_iff, h.tables.configs attempt.pid]
    exact hpid
  refine ⟨h.tables.launch campaign config hpid, ?_, ?_, ?_, ?_, h.held, ?_, ?_, ?_, ?_⟩
  · intro pid config' hsome
    rw [hget] at hsome
    by_cases heq : pid = attempt.pid
    · rw [if_pos heq] at hsome
      cases hsome
      rw [Function.update_self]
    · rw [if_neg heq] at hsome
      rw [Function.update_of_ne (hother hsome)]
      exact h.config_running pid config' hsome
  · intro pid pid' config' hsome hsome'
    rw [hget] at hsome hsome'
    by_cases heq : pid = attempt.pid <;> by_cases heq' : pid' = attempt.pid
    · rw [heq, heq']
    · rw [if_pos heq] at hsome
      rw [if_neg heq'] at hsome'
      exact absurd (Option.some.inj hsome).symm (hother hsome')
    · rw [if_neg heq] at hsome
      rw [if_pos heq'] at hsome'
      exact absurd (Option.some.inj hsome').symm (hother hsome)
    · rw [if_neg heq] at hsome
      rw [if_neg heq'] at hsome'
      exact h.config_unique pid pid' config' hsome hsome'
  · intro config' hrunning
    by_cases hc : config' = config
    · exact ⟨attempt.pid, by rw [hget, if_pos rfl, hc]⟩
    · rw [Function.update_of_ne hc] at hrunning
      obtain ⟨pid, hsome⟩ := h.running_config config' hrunning
      have hne : pid ≠ attempt.pid := by
        rintro rfl
        rw [hnew] at hsome
        cases hsome
      exact ⟨pid, by rw [hget, if_neg hne, hsome]⟩
  · intro config'
    rcases eq_or_ne config' config with rfl | hc
    · rw [Function.update_self]
      exact ⟨fun _ => Or.inl rfl, fun _ => (h.locked config').mpr (Or.inr hstatus)⟩
    · rw [Function.update_of_ne hc]
      exact h.locked config'
  · intro config'
    have hhistory : (.gaveUp config' : SupervisorEvent)
        ∈ (Supervisor.launch campaign s config attempt).history ↔ .gaveUp config' ∈ s.history := by
      rw [Supervisor.launch, List.mem_append, List.mem_singleton]
      exact or_iff_left nofun
    rw [hhistory, h.gaveUp config']
    by_cases hc : config' = config
    · rw [hc, Function.update_self, hstatus]
      exact ⟨nofun, nofun⟩
    · rw [Function.update_of_ne hc]
  · intro config' pid sanitizerPrefix hmem
    have hcounts : ((Supervisor.launch campaign s config attempt).launchCounts.get config').getD 0
        = if config' = config then (s.launchCounts.get config).getD 0 + 1
          else (s.launchCounts.get config').getD 0 := by
      rw [Supervisor.launch, AssocMap.get_set]
      split <;> rfl
    rw [hcounts]
    rcases List.mem_append.mp hmem with hold | hnew
    · obtain ⟨n, hn, hstarts⟩ := h.numbered config' pid sanitizerPrefix hold
      refine ⟨n, ?_, hstarts⟩
      split
      · next hc =>
          rw [hc] at hn
          omega
      · exact hn
    · cases List.mem_singleton.mp hnew
      exact ⟨_, by rw [if_pos rfl], rfl⟩
  · rw [Supervisor.launch, List.filterMap_append]
    refine List.nodup_append.mpr ⟨h.prefixes, List.nodup_singleton _, ?_⟩
    rintro sanitizerPrefix hold _ hnew rfl
    cases List.mem_singleton.mp hnew
    obtain ⟨e, he, hstarts⟩ := List.mem_filterMap.mp hold
    cases e with
    | gaveUp config' => cases hstarts
    | launched config' pid sanitizerPrefix =>
        obtain ⟨n, hn, heq⟩ := h.numbered config' pid sanitizerPrefix he
        obtain ⟨rfl, rfl⟩ :=
          sanitizerPrefix_injective campaign (heq.symm.trans (Option.some.inj hstarts))
        exact Nat.not_succ_le_self _ hn
  · rw [Supervisor.launch]
    refine List.pairwise_append.mpr ⟨h.order, List.pairwise_singleton _ _, ?_⟩
    rintro e he f hf config' rfl pid sanitizerPrefix rfl
    cases List.mem_singleton.mp hf
    have hgiven := (h.gaveUp config).mp he
    rw [hstatus] at hgiven
    cases hgiven

/-- A configuration that is down is given up, and its lock is released. -/
theorem Inv.giveUp (h : Inv campaign status s) {config : Nat} (hstatus : status config = .down) :
    Inv campaign (Function.update status config .givenUp) (giveUp s config) := by
  obtain ⟨fd, hfd⟩ := Option.isSome_iff_exists.mp ((h.locked config).mpr (Or.inr hstatus))
  have hheld := (h.held config fd).mp hfd
  have heq : Supervisor.giveUp s config = { s with
      heldLocks := s.heldLocks.erase fd
      configLockFds := s.configLockFds.erase config
      history := s.history ++ [.gaveUp config] } := by
    rw [Supervisor.giveUp, releaseConfigLock, hfd]
  rw [heq]
  refine ⟨⟨h.tables.distinct, h.tables.configs, h.tables.pidFiles, h.tables.startedAt,
    h.tables.stopSignals, h.tables.sanitizerPrefixes⟩, ?_, h.config_unique, ?_, ?_, ?_, ?_,
    ?_, ?_, ?_⟩
  · intro pid config' hsome
    have hrunning := h.config_running pid config' hsome
    rw [Function.update_of_ne, hrunning]
    rintro rfl
    rw [hstatus] at hrunning
    cases hrunning
  · intro config' hrunning
    by_cases hc : config' = config
    · rw [hc, Function.update_self] at hrunning
      cases hrunning
    · rw [Function.update_of_ne hc] at hrunning
      exact h.running_config config' hrunning
  · intro config'
    rw [AssocMap.get_erase]
    by_cases hc : config' = config
    · rw [hc, if_pos rfl, Function.update_self]
      constructor
      · nofun
      · rintro (h | h) <;> cases h
    · rw [if_neg hc, Function.update_of_ne hc]
      exact h.locked config'
  · intro config' fd'
    rw [AssocMap.get_erase, AssocMap.get_erase]
    have hold := h.held config' fd'
    by_cases hc : config' = config <;> by_cases hf : fd' = fd
    · simp [hc, hf]
    · rw [if_pos hc, if_neg hf, ← hold, hc, hfd]
      simp [Ne.symm hf]
    · rw [if_neg hc, if_pos hf, hold, hf, hheld]
      simp [Ne.symm hc]
    · rw [if_neg hc, if_neg hf]
      exact hold
  · intro config'
    rw [List.mem_append, List.mem_singleton, h.gaveUp config']
    by_cases hc : config' = config
    · rw [hc, Function.update_self]
      exact ⟨fun _ => rfl, fun _ => Or.inr rfl⟩
    · rw [Function.update_of_ne hc]
      refine or_iff_left fun heq => hc ?_
      cases heq
      rfl
  · intro config' pid sanitizerPrefix hmem
    rcases List.mem_append.mp hmem with hold | hnew
    · exact h.numbered config' pid sanitizerPrefix hold
    · cases List.mem_singleton.mp hnew
  · rw [List.filterMap_append]
    exact (List.append_nil _).symm ▸ h.prefixes
  · refine List.pairwise_append.mpr ⟨h.order, List.pairwise_singleton _ _, ?_⟩
    rintro e he f hf config' rfl pid sanitizerPrefix rfl
    cases List.mem_singleton.mp hf

/-! ## Steps of the script -/

theorem Inv.setRestarts (h : Inv campaign status s) (counts : AssocMap Nat Nat) :
    Inv campaign status { s with rapidRestartCounts := counts } :=
  ⟨⟨h.tables.distinct, h.tables.configs, h.tables.pidFiles, h.tables.startedAt,
    h.tables.stopSignals, h.tables.sanitizerPrefixes⟩, h.config_running, h.config_unique,
    h.running_config, h.locked, h.held, h.gaveUp, h.numbered, h.prefixes, h.order⟩

/-- With the lock held, a launch fails without a trace or goes through. -/
theorem runFuzzer_locked {config : Nat} {attempt : LaunchAttempt} {kind : LaunchKind}
    (h : (s.configLockFds.get config).isSome) :
    runFuzzer campaign s config kind attempt = (s, false)
      ∨ runFuzzer campaign s config kind attempt = (launch campaign s config attempt, true) := by
  obtain ⟨fd, hfd⟩ := Option.isSome_iff_exists.mp h
  have hacquire : s.acquireConfigLock config attempt = (s, true) := by
    rw [acquireConfigLock, hfd]
  unfold runFuzzer
  simp only [hacquire]
  split_ifs
  all_goals first | exact Or.inl rfl | exact Or.inr rfl

/-- A restart ends with the configuration running or given up, and a new
child goes to the end of the list. -/
theorem Inv.restart (h : Inv campaign status s) {config : Nat} {attempt : LaunchAttempt}
    (hstatus : status config = .down) (hfresh : Fresh s attempt) (runtime : Int) :
    (Inv campaign (Function.update status config .running)
        (Supervisor.restart campaign s config runtime attempt)
      ∧ (Supervisor.restart campaign s config runtime attempt).fuzzerPids
        = s.fuzzerPids.push attempt.pid)
    ∨ (Inv campaign (Function.update status config .givenUp)
        (Supervisor.restart campaign s config runtime attempt)
      ∧ (Supervisor.restart campaign s config runtime attempt).fuzzerPids = s.fuzzerPids) := by
  rw [Supervisor.restart]
  generalize (if runtime ≥ 60 then 0 else (s.rapidRestartCounts.get config).getD 0) + 1
    = restartCount
  have hcounted := h.setRestarts (s.rapidRestartCounts.set config restartCount)
  have hlocked : (s.configLockFds.get config).isSome := (h.locked config).mpr (Or.inr hstatus)
  have hpids : ∀ t : Supervisor, (Supervisor.giveUp t config).fuzzerPids = t.fuzzerPids := by
    intro t
    rw [Supervisor.giveUp, releaseConfigLock]
    split <;> rfl
  split_ifs with hcount
  · rcases @runFuzzer_locked campaign
      { s with rapidRestartCounts := s.rapidRestartCounts.set config restartCount }
      config attempt .restart hlocked with hrun | hrun
    · rw [hrun]
      exact Or.inr ⟨hcounted.giveUp hstatus, hpids _⟩
    · rw [hrun]
      exact Or.inl ⟨hcounted.launch hstatus hfresh.1, rfl⟩
  · exact Or.inr ⟨hcounted.giveUp hstatus, hpids _⟩

/-- A running configuration may be given up; nothing else changes. -/
def Settles (status status' : Nat → ConfigStatus) : Prop :=
  ∀ config, status' config = status config
    ∨ status config = .running ∧ status' config = .givenUp

/-- A visit of the loop finds what it reads. -/
theorem Inv.visit_eq (h : Inv campaign status s) {index : Nat}
    (hindex : (s.fuzzerPids.get index).isSome) (e : ChildVisit) :
    ∃ pid config startedAt, s.fuzzerPids.get index = some pid
      ∧ s.fuzzerConfigs.get pid = some config
      ∧ Supervisor.visit campaign s index e = .ok (if e.alive then s else
        Supervisor.restart campaign (s.forget index pid) config (e.now - startedAt) e.attempt) := by
  obtain ⟨pid, hpid⟩ := Option.isSome_iff_exists.mp hindex
  have hvalue := SparseArray.mem_values_of_get hpid
  obtain ⟨config, hconfig⟩ := Option.isSome_iff_exists.mp
    (AssocMap.get_isSome_iff.mpr ((h.tables.configs pid).mpr hvalue))
  obtain ⟨pidFile, hpidFile⟩ := Option.isSome_iff_exists.mp
    (AssocMap.get_isSome_iff.mpr ((h.tables.pidFiles pid).mpr hvalue))
  obtain ⟨startedAt, hstartedAt⟩ := Option.isSome_iff_exists.mp
    (AssocMap.get_isSome_iff.mpr ((h.tables.startedAt pid).mpr hvalue))
  refine ⟨pid, config, startedAt, hpid, hconfig, ?_⟩
  rw [Supervisor.visit, hpid]
  simp only [hconfig, hpidFile, hstartedAt]
  split <;> rfl

/-- A visit settles the configuration of its child and leaves the other
indices alone. -/
theorem Inv.visit (h : Inv campaign status s) {index : Nat} {e : ChildVisit} {s' : Supervisor}
    (hindex : (s.fuzzerPids.get index).isSome)
    (hfresh : ∀ pid, s.fuzzerPids.get index = some pid → e.alive = false →
      Fresh (s.forget index pid) e.attempt)
    (hvisit : Supervisor.visit campaign s index e = .ok s') :
    ∃ status', Inv campaign status' s' ∧ Settles status status'
      ∧ ∀ j, j ≠ index → (s.fuzzerPids.get j).isSome → (s'.fuzzerPids.get j).isSome := by
  obtain ⟨pid, config, startedAt, hpid, hconfig, heq⟩ := h.visit_eq hindex e
  obtain rfl := Except.ok.inj (heq.symm.trans hvisit)
  cases halive : e.alive with
  | true => exact ⟨status, h, fun _ => Or.inl rfl, fun _ _ hj => hj⟩
  | false =>
      have hrunning := h.config_running pid config hconfig
      have hdown := Function.update_self config ConfigStatus.down status
      rw [if_neg Bool.false_ne_true]
      have hkept : ∀ j, j ≠ index → (s.fuzzerPids.get j).isSome →
          ((s.forget index pid).fuzzerPids.get j).isSome :=
        fun j hj hsome => SparseArray.get_unset_of_ne hj hsome
      rcases (h.forget hpid hconfig).restart hdown (hfresh pid hpid halive) (e.now - startedAt)
        with ⟨hinv, hpids⟩ | ⟨hinv, hpids⟩
      · refine ⟨_, hinv, fun config' => ?_, fun j hj hsome => ?_⟩
        · by_cases hc : config' = config
          · rw [hc, Function.update_self]
            exact Or.inl hrunning.symm
          · rw [Function.update_of_ne hc, Function.update_of_ne hc]
            exact Or.inl rfl
        · rw [hpids]
          exact SparseArray.get_push_of_isSome (hkept j hj hsome) _
      · refine ⟨_, hinv, fun config' => ?_, fun j hj hsome => ?_⟩
        · by_cases hc : config' = config
          · rw [hc, Function.update_self]
            exact Or.inr ⟨hrunning, rfl⟩
          · rw [Function.update_of_ne hc, Function.update_of_ne hc]
            exact Or.inl rfl
        · rw [hpids]
          exact hkept j hj hsome

/-- Exactly the selected configurations have been launched, and none is
down. -/
def Settled (selected : List Nat) (status : Nat → ConfigStatus) : Prop :=
  ∀ config, (config ∈ selected → status config = .running ∨ status config = .givenUp)
    ∧ (config ∉ selected → status config = .absent)

theorem Settles.settled {selected : List Nat} {status' : Nat → ConfigStatus}
    (h : Settles status status') (hs : Settled selected status) : Settled selected status' := by
  intro config
  rcases h config with heq | ⟨hrunning, hgiven⟩
  · rw [heq]
    exact hs config
  · refine ⟨fun _ => Or.inr hgiven, fun hnot => ?_⟩
    rw [(hs config).2 hnot] at hrunning
    cases hrunning

/-- No child is listed exactly when all configurations are given up. -/
theorem Inv.values_eq_nil_iff {selected : List Nat} (h : Inv campaign status s)
    (hs : Settled selected status) :
    s.fuzzerPids.values = [] ↔ ∀ config ∈ selected, .gaveUp config ∈ s.history := by
  constructor
  · intro hnil config hmem
    rw [h.gaveUp config]
    rcases (hs config).1 hmem with hrunning | hgiven
    · obtain ⟨pid, hpid⟩ := h.running_config config hrunning
      have hlisted := (h.tables.configs pid).mp
        (AssocMap.get_isSome_iff.mp (Option.isSome_iff_exists.mpr ⟨config, hpid⟩))
      rw [hnil] at hlisted
      cases hlisted
    · exact hgiven
  · intro hall
    rw [List.eq_nil_iff_forall_not_mem]
    intro pid hlisted
    obtain ⟨config, hconfig⟩ := Option.isSome_iff_exists.mp
      (AssocMap.get_isSome_iff.mpr ((h.tables.configs pid).mpr hlisted))
    have hrunning := h.config_running pid config hconfig
    by_cases hmem : config ∈ selected
    · have hgiven := (h.gaveUp config).mp (hall config hmem)
      rw [hrunning] at hgiven
      cases hgiven
    · rw [(hs config).2 hmem] at hrunning
      cases hrunning

/-! ## Runs of the script -/

/-- A poll reads no unset variable and keeps the bookkeeping. -/
theorem Inv.polls {selected indices : List Nat} {s' : Supervisor} {exit : Option SupervisorExit}
    (hpolls : Polls campaign indices s s' exit) :
    ∀ {status : Nat → ConfigStatus}, Inv campaign status s → Settled selected status →
      indices.Nodup → (∀ index ∈ indices, (s.fuzzerPids.get index).isSome) →
      ∃ status', Inv campaign status' s' ∧ Settled selected status'
        ∧ (exit = none ∧ s'.fuzzerPids.values ≠ []
          ∨ exit = some .noFuzzingProfilesRemain ∧ s'.fuzzerPids.values = []) := by
  induction hpolls with
  | remain hne =>
      intro status h hs _ _
      exact ⟨status, h, hs, Or.inl ⟨rfl, hne⟩⟩
  | noneRemain hnil =>
      intro status h hs _ _
      exact ⟨status, h, hs, Or.inr ⟨rfl, hnil⟩⟩
  | @visit index indices s s' s'' exit e hfresh hvisit _ ih =>
      intro status h hs hnodup hsome
      obtain ⟨hnot, hnodup⟩ := List.nodup_cons.mp hnodup
      obtain ⟨status', hinv, hsettles, hothers⟩ :=
        h.visit (hsome index List.mem_cons_self) hfresh hvisit
      refine ih hinv (hsettles.settled hs) hnodup fun j hj => ?_
      exact hothers j (fun hji => hnot (hji ▸ hj)) (hsome j (List.mem_cons_of_mem _ hj))
  | @fail index indices s exit e hvisit =>
      intro status h _ _ hsome
      obtain ⟨pid, config, startedAt, -, -, heq⟩ := h.visit_eq (hsome index List.mem_cons_self) e
      rw [heq] at hvisit
      cases hvisit

/-- The first launch of a configuration. -/
theorem Inv.firstLaunch (h : Inv campaign status s) {config : Nat} {attempt : LaunchAttempt}
    {s' : Supervisor} (hstatus : status config = .absent) (hfresh : Fresh s attempt)
    (hrun : runFuzzer campaign s config .initial attempt = (s', true)) :
    Inv campaign (Function.update status config .running) s' := by
  have hnone : s.configLockFds.get config = none := by
    rw [← Option.not_isSome_iff_eq_none, h.locked config, hstatus]
    rintro (h | h) <;> cases h
  rw [runFuzzer, acquireConfigLock, hnone] at hrun
  split_ifs at hrun with hid hstaged hfree hstopped harchived
  all_goals try cases hrun
  have hlocked := (h.acquire hstatus hfresh.2).launch
    (Function.update_self config ConfigStatus.down status) hfresh.1
  rwa [Function.update_idem] at hlocked

/-- The first launches: the configurations come up one after the other. -/
theorem Inv.launches {configs : List Nat} {s' : Supervisor}
    (hlaunches : Launches campaign configs s s') :
    ∀ {status : Nat → ConfigStatus}, Inv campaign status s → configs.Nodup →
      (∀ config ∈ configs, status config = .absent) →
      ∃ status', Inv campaign status' s' ∧ (∀ config ∈ configs, status' config = .running)
        ∧ ∀ config, config ∉ configs → status' config = status config := by
  induction hlaunches with
  | nil =>
      intro status h _ _
      exact ⟨status, h, nofun, fun _ _ => rfl⟩
  | @cons config configs s s' s'' attempt hfresh hrun _ ih =>
      intro status h hnodup habsent
      obtain ⟨hnot, hnodup⟩ := List.nodup_cons.mp hnodup
      have hstatus := habsent config List.mem_cons_self
      have hnext := h.firstLaunch hstatus hfresh hrun
      have hother : ∀ {config'}, config' ≠ config →
          Function.update status config .running config' = status config' :=
        fun hne => Function.update_of_ne hne _ _
      obtain ⟨status', hinv, hrunning, hrest⟩ := ih hnext hnodup fun config' hmem => by
        rw [hother fun heq => hnot (heq ▸ hmem)]
        exact habsent config' (List.mem_cons_of_mem _ hmem)
      refine ⟨status', hinv, List.forall_mem_cons.mpr ⟨?_, hrunning⟩, fun config' hmem => ?_⟩
      · rw [hrest config hnot, Function.update_self]
      · obtain ⟨hne, hmem⟩ := not_or.mp (List.mem_cons.not.mp hmem)
        rw [hrest config' hmem, hother hne]

theorem selects_nodup {selected : List Nat} (h : campaign.Selects selected) :
    selected.Nodup := by
  cases h with
  | all => exact List.nodup_range'
  | one _ => exact List.nodup_singleton _

/-- The invariant holds at every head of the loop. -/
theorem LoopHead.inv {selected : List Nat} (hselected : campaign.Selects selected)
    (h : LoopHead campaign selected s) :
    ∃ status, Inv campaign status s ∧ Settled selected status := by
  induction h with
  | start hlaunches =>
      obtain ⟨status, hinv, hrunning, hrest⟩ :=
        Inv.launches hlaunches (inv_init campaign) (selects_nodup hselected) fun _ _ => rfl
      exact ⟨status, hinv, fun config => ⟨fun hmem => Or.inl (hrunning config hmem),
        fun hmem => hrest config hmem⟩⟩
  | poll _ hpolls ih =>
      obtain ⟨status, hinv, hs⟩ := ih
      obtain ⟨status', hinv', hs', -⟩ := Inv.polls hpolls hinv hs (SparseArray.nodup_indices _)
        fun index hmem => SparseArray.mem_indices_iff.mp hmem
      exact ⟨status', hinv', hs'⟩

/-- The process holds the lock of a configuration, and knows so. -/
def HoldsLock (s : Supervisor) (config : Nat) : Prop :=
  ∃ fd, s.configLockFds.get config = some fd ∧ s.heldLocks.get fd = some config

/-- Nothing is locked for a configuration. -/
def ReleasedLock (s : Supervisor) (config : Nat) : Prop :=
  s.configLockFds.get config = none ∧ ∀ fd, s.heldLocks.get fd ≠ some config

/-- A configuration with one child. -/
def IsRunning (s : Supervisor) (config : Nat) : Prop :=
  (∃! pid, pid ∈ s.fuzzerPids.values ∧ s.fuzzerConfigs.get pid = some config)
    ∧ HoldsLock s config ∧ .gaveUp config ∉ s.history

/-- A configuration that is not launched again. -/
def IsGivenUp (s : Supervisor) (config : Nat) : Prop :=
  (∀ pid, s.fuzzerConfigs.get pid ≠ some config)
    ∧ ReleasedLock s config ∧ .gaveUp config ∈ s.history

/-- The bookkeeping at the head of the loop. -/
structure Bookkeeping (selected : List Nat) (s : Supervisor) : Prop where
  tables : Tables s
  status : ∀ config ∈ selected, IsRunning s config ∨ IsGivenUp s config
  no_relaunch : s.history.Pairwise NoRelaunch
  prefixes : (s.history.filterMap SupervisorEvent.sanitizerPrefix?).Nodup

theorem Inv.bookkeeping {selected : List Nat} (h : Inv campaign status s)
    (hs : Settled selected status) : Bookkeeping selected s where
  tables := h.tables
  no_relaunch := h.order
  prefixes := h.prefixes
  status := by
    intro config hmem
    rcases (hs config).1 hmem with hrunning | hgiven
    · obtain ⟨pid, hpid⟩ := h.running_config config hrunning
      obtain ⟨fd, hfd⟩ := Option.isSome_iff_exists.mp ((h.locked config).mpr (Or.inl hrunning))
      have hlisted := (h.tables.configs pid).mp
        (AssocMap.get_isSome_iff.mp (Option.isSome_iff_exists.mpr ⟨config, hpid⟩))
      refine Or.inl ⟨⟨pid, ⟨hlisted, hpid⟩, ?_⟩, ⟨fd, hfd, (h.held config fd).mp hfd⟩, ?_⟩
      · rintro pid' ⟨-, hpid'⟩
        exact h.config_unique pid' pid config hpid' hpid
      · rw [h.gaveUp config, hrunning]
        nofun
    · have hnone : s.configLockFds.get config = none := by
        rw [← Option.not_isSome_iff_eq_none, h.locked config, hgiven]
        rintro (h | h) <;> cases h
      refine Or.inr ⟨fun pid hpid => ?_, ⟨hnone, fun fd hfd => ?_⟩, (h.gaveUp config).mpr hgiven⟩
      · have hrunning := h.config_running pid config hpid
        rw [hgiven] at hrunning
        cases hrunning
      · have hsome := (h.held config fd).mpr hfd
        rw [hnone] at hsome
        cases hsome

/-- At every head of the monitoring loop the tables describe the running
children, every selected configuration runs under its lock or is given up
for good, and no two launches share a prefix. A poll ends the script only
when all configurations are given up, and then it does. -/
theorem supervisor_bookkeeping (campaign : Campaign) {selected : List Nat}
    (hselected : campaign.Selects selected) {s : Supervisor}
    (h : LoopHead campaign selected s) :
    Bookkeeping selected s
      ∧ ∀ s' exit, Polls campaign s.fuzzerPids.indices s s' exit →
        (exit = some .noFuzzingProfilesRemain
          ↔ ∀ config ∈ selected, .gaveUp config ∈ s'.history)
        ∧ exit ≠ some .unboundVariable := by
  obtain ⟨status, hinv, hs⟩ := h.inv hselected
  refine ⟨hinv.bookkeeping hs, fun s' exit hpolls => ?_⟩
  obtain ⟨status', hinv', hs', hexit⟩ := Inv.polls hpolls hinv hs (SparseArray.nodup_indices _)
    fun index hmem => SparseArray.mem_indices_iff.mp hmem
  rw [← hinv'.values_eq_nil_iff hs']
  rcases hexit with ⟨rfl, hne⟩ | ⟨rfl, hnil⟩
  · exact ⟨⟨nofun, fun hnil => absurd hnil hne⟩, nofun⟩
  · exact ⟨⟨fun _ => hnil, fun _ => rfl⟩, nofun⟩

/-! ## Campaigns -/

def demoCampaign : Campaign := ⟨"/w".toList, "c".toList, 1, true⟩

def demoAttempt (lockFd pid : Nat) : LaunchAttempt :=
  ⟨true, lockFd, true, true, true, pid, 0, true⟩

/-- The only configuration has been launched. -/
def demoStarted : Supervisor := (runFuzzer demoCampaign .init 1 .initial (demoAttempt 10 100)).1

def demoPair : Campaign := { demoCampaign with configCount := 2 }

/-- Both configurations have been launched. -/
def demoPairStarted : Supervisor :=
  (runFuzzer demoPair (runFuzzer demoPair .init 1 .initial (demoAttempt 10 100)).1 2 .initial
    (demoAttempt 11 101)).1

/-- The child of the first one has been replaced. -/
def demoPairRestarted : Supervisor :=
  restart demoPair (demoPairStarted.forget 0 100) 1 5 (demoAttempt 12 102)

/-- The child of the second one has exited too, and its binary is gone. -/
def demoPairGivenUp : Supervisor :=
  restart demoPair (demoPairRestarted.forget 1 101) 2 5 { demoAttempt 12 103 with staged := false }

theorem supervisor_bookkeeping_demo :
    Bookkeeping [1, 2] demoPairGivenUp
      ∧ ∀ s' exit, Polls demoPair demoPairGivenUp.fuzzerPids.indices demoPairGivenUp s' exit →
        (exit = some .noFuzzingProfilesRemain ↔ ∀ config ∈ [1, 2], .gaveUp config ∈ s'.history)
        ∧ exit ≠ some .unboundVariable := by
  have hstart : LoopHead demoPair [1, 2] demoPairStarted :=
    .start (.cons (⟨by decide, rfl⟩ : Fresh .init (demoAttempt 10 100)) rfl
      (.cons (⟨by decide, rfl⟩ : Fresh _ (demoAttempt 11 101)) rfl .nil))
  have hsecond : Polls demoPair [1] demoPairRestarted demoPairGivenUp none :=
    .visit (e := ⟨false, 5, { demoAttempt 12 103 with staged := false }⟩) (by
      rintro pid hpid -
      obtain rfl : 101 = pid := Option.some.inj hpid
      exact ⟨by decide, rfl⟩) rfl (.remain (by decide))
  have hpoll : Polls demoPair demoPairStarted.fuzzerPids.indices demoPairStarted demoPairGivenUp
      none :=
    .visit (e := ⟨false, 5, demoAttempt 12 102⟩) (by
      rintro pid hpid -
      obtain rfl : 100 = pid := Option.some.inj hpid
      exact ⟨by decide, rfl⟩) rfl hsecond
  exact supervisor_bookkeeping demoPair .all (hstart.poll hpoll)

end Supervisor

end LighttpdFuzz

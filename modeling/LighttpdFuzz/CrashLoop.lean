import LighttpdFuzz.SupervisorLoop

/-!
# Crash loops

The supervisor counts, for each configuration, the exits since the last
child that ran for a minute; an exit that brings the count above five is
final. The count after some exits is a function of their runtimes alone
(`rapidCount`), and it says how many of the last children ran for less than
a minute (`lt_rapidCount_iff`), so it passes five exactly if the last five
did and are not the first ones (`CrashLoop`).

`Watched` are the runs of the monitoring loop, with the exits it has seen;
the exits come in any order, so the order in which a poll visits the
children does not matter. What the history has about a configuration is
followed through such a run (`Followed`).
-/

namespace LighttpdFuzz

namespace Supervisor

/-! ## Counting -/

/-- The count after exits with these runtimes. -/
def rapidCount (runtimes : List Int) : Nat :=
  runtimes.foldl (fun count runtime => (if runtime ≥ 60 then 0 else count) + 1) 0

/-- There are at least six exits, and the last five came within a minute. -/
def CrashLoop (runtimes : List Int) : Prop :=
  6 ≤ runtimes.length ∧ ∀ runtime ∈ runtimes.drop (runtimes.length - 5), runtime < 60

instance (runtimes : List Int) : Decidable (CrashLoop runtimes) := by
  unfold CrashLoop
  infer_instance

theorem rapidCount_concat (runtimes : List Int) (runtime : Int) :
    rapidCount (runtimes ++ [runtime])
      = (if runtime ≥ 60 then 0 else rapidCount runtimes) + 1 := by
  rw [rapidCount, List.foldl_append]
  rfl

/-- The count passes `k` if there was an exit before the last `k`, and
these were rapid. -/
theorem lt_rapidCount_iff (runtimes : List Int) : ∀ k : Nat, k < rapidCount runtimes
    ↔ k < runtimes.length
      ∧ ∀ runtime ∈ runtimes.drop (runtimes.length - k), runtime < 60 := by
  induction runtimes using List.reverseRecOn with
  | nil => exact fun k => ⟨nofun, fun h => nomatch h.1⟩
  | append_singleton runtimes last ih =>
      intro k
      rw [rapidCount_concat, List.length_append, List.length_singleton]
      cases k with
      | zero =>
          rw [Nat.sub_zero, List.drop_eq_nil_of_le (by rw [List.length_append]; exact le_rfl)]
          exact ⟨fun _ => ⟨Nat.succ_pos _, nofun⟩, fun _ => Nat.succ_pos _⟩
      | succ k =>
          have hdrop : (runtimes ++ [last]).drop (runtimes.length + 1 - (k + 1))
              = runtimes.drop (runtimes.length - k) ++ [last] := by
            rw [Nat.add_sub_add_right, List.drop_append_of_le_length (Nat.sub_le _ _)]
          rw [hdrop, List.forall_mem_append, List.forall_mem_singleton, Nat.add_lt_add_iff_right,
            Nat.add_lt_add_iff_right]
          by_cases hlast : last ≥ 60
          · rw [if_pos hlast]
            exact ⟨nofun, fun h => absurd h.2.2 (Int.not_lt.mpr hlast)⟩
          · rw [if_neg hlast, ih k]
            exact ⟨fun h => ⟨h.1, h.2, Int.not_le.mp hlast⟩, fun h => ⟨h.1, h.2.1⟩⟩

theorem rapidCount_le_iff (runtimes : List Int) :
    rapidCount runtimes ≤ 5 ↔ ¬ CrashLoop runtimes := by
  rw [← not_lt]
  exact not_congr (lt_rapidCount_iff runtimes 5)

/-! ## What happens to a configuration -/

inductive Fate where
  | launched | gaveUp
  deriving DecidableEq, Repr

/-- What an event means for a configuration. -/
def SupervisorEvent.fate? (config : Nat) : SupervisorEvent → Option Fate
  | .launched config' _ _ => if config' = config then some .launched else none
  | .gaveUp config' => if config' = config then some .gaveUp else none

/-- The launches of a configuration, and whether it is given up. -/
def fates (config : Nat) (history : List SupervisorEvent) : List Fate :=
  history.filterMap (SupervisorEvent.fate? config)

theorem fates_append (config : Nat) (history events : List SupervisorEvent) :
    fates config (history ++ events) = fates config history ++ fates config events :=
  List.filterMap_append

theorem fates_launched (config config' pid : Nat) (sanitizerPrefix : Text) :
    fates config [.launched config' pid sanitizerPrefix]
      = if config' = config then [.launched] else [] := by
  simp only [fates, List.filterMap, SupervisorEvent.fate?]
  split_ifs <;> rfl

theorem fates_gaveUp (config config' : Nat) :
    fates config [.gaveUp config'] = if config' = config then [.gaveUp] else [] := by
  simp only [fates, List.filterMap, SupervisorEvent.fate?]
  split_ifs <;> rfl

theorem gaveUp_mem_fates {config : Nat} {history : List SupervisorEvent} :
    .gaveUp ∈ fates config history ↔ .gaveUp config ∈ history := by
  rw [fates, List.mem_filterMap]
  constructor
  · rintro ⟨event, hevent, hfate⟩
    cases event with
    | launched config' pid sanitizerPrefix =>
        rw [SupervisorEvent.fate?] at hfate
        split at hfate <;> cases hfate
    | gaveUp config' =>
        rw [SupervisorEvent.fate?] at hfate
        split at hfate
        · next h => exact h ▸ hevent
        · cases hfate
  · exact fun h => ⟨_, h, if_pos rfl⟩

/-- What the supervisor does after exits with these runtimes. -/
def fateAfter (runtimes : List Int) : Fate := if CrashLoop runtimes then .gaveUp else .launched

/-! ## Steps -/

/-- The tests of `run_fuzzer` on a restart succeed. -/
def Relaunches (attempt : LaunchAttempt) : Prop :=
  attempt.staged = true ∧ attempt.previousStopped = true

variable {campaign : Campaign} {s s' : Supervisor} {config : Nat} {attempt : LaunchAttempt}
  {kind : LaunchKind}

theorem acquireConfigLock_keeps (s : Supervisor) (config : Nat) (attempt : LaunchAttempt) :
    (s.acquireConfigLock config attempt).1.rapidRestartCounts = s.rapidRestartCounts
      ∧ (s.acquireConfigLock config attempt).1.history = s.history := by
  unfold acquireConfigLock
  split
  · exact ⟨rfl, rfl⟩
  · split <;> exact ⟨rfl, rfl⟩

theorem runFuzzer_true (h : runFuzzer campaign s config kind attempt = (s', true)) :
    s'.rapidRestartCounts = s.rapidRestartCounts
      ∧ ∃ sanitizerPrefix,
        s'.history = s.history ++ [.launched config attempt.pid sanitizerPrefix] := by
  obtain ⟨hcounts, hhistory⟩ := acquireConfigLock_keeps s config attempt
  obtain ⟨locked, ok, hacquire⟩ :
      ∃ locked ok, s.acquireConfigLock config attempt = (locked, ok) := ⟨_, _, rfl⟩
  rw [hacquire] at hcounts hhistory
  have hlaunch : s' = launch campaign locked config attempt := by
    unfold runFuzzer at h
    simp only [hacquire] at h
    cases ok with
    | false => split_ifs at h <;> cases (Prod.mk.inj h).2
    | true =>
        split_ifs at h
        all_goals first | exact (Prod.mk.inj h).1.symm | cases (Prod.mk.inj h).2
  rw [hlaunch]
  exact ⟨hcounts, _, by rw [launch, hhistory]⟩

theorem runFuzzer_relaunches (hlocked : (s.configLockFds.get config).isSome)
    (hid : config ∈ campaign.configIds) (h : Relaunches attempt) :
    runFuzzer campaign s config .restart attempt = (launch campaign s config attempt, true) := by
  obtain ⟨fd, hfd⟩ := Option.isSome_iff_exists.mp hlocked
  have hacquire : s.acquireConfigLock config attempt = (s, true) := by
    rw [acquireConfigLock, hfd]
  rw [runFuzzer, if_neg (not_not.mpr hid), if_neg (not_not.mpr h.1)]
  simp only [hacquire]
  rw [if_neg (not_not.mpr h.2), if_neg (fun hkind => absurd hkind.1 (by decide))]

theorem history_giveUp (t : Supervisor) (config : Nat) :
    (giveUp t config).history = t.history ++ [.gaveUp config]
      ∧ (giveUp t config).rapidRestartCounts = t.rapidRestartCounts := by
  rw [giveUp, releaseConfigLock]
  split <;> exact ⟨rfl, rfl⟩

/-- The count after one more exit. -/
def nextCount (s : Supervisor) (config : Nat) (runtime : Int) : Nat :=
  (if runtime ≥ 60 then 0 else (s.rapidRestartCounts.get config).getD 0) + 1

/-- A restart counts the exit and says one thing about its configuration. -/
theorem restart_effect (hlocked : (s.configLockFds.get config).isSome) (runtime : Int) :
    (restart campaign s config runtime attempt).rapidRestartCounts
        = s.rapidRestartCounts.set config (nextCount s config runtime)
      ∧ ∃ fate, (∀ config', fates config' (restart campaign s config runtime attempt).history
          = fates config' s.history ++ if config = config' then [fate] else [])
        ∧ (config ∈ campaign.configIds → Relaunches attempt →
          fate = if nextCount s config runtime ≤ 5 then .launched else .gaveUp) := by
  let counted := { s with
    rapidRestartCounts := s.rapidRestartCounts.set config (nextCount s config runtime) }
  have hgiven : (giveUp counted config).rapidRestartCounts
        = s.rapidRestartCounts.set config (nextCount s config runtime)
      ∧ ∀ config', fates config' (giveUp counted config).history
        = fates config' s.history ++ if config = config' then [.gaveUp] else [] := by
    obtain ⟨hhistory, hcounts⟩ := history_giveUp counted config
    refine ⟨hcounts, fun config' => ?_⟩
    rw [hhistory, fates_append, fates_gaveUp]
  have hrestart {t : Supervisor} {ok : Bool}
      (hrun : runFuzzer campaign counted config .restart attempt = (t, ok)) :
      restart campaign s config runtime attempt
        = if nextCount s config runtime ≤ 5 then if ok then t else giveUp t config
          else giveUp counted config := by
    simp only [counted, nextCount] at hrun ⊢
    unfold restart
    simp only [hrun]
    cases ok <;> rfl
  by_cases hcount : nextCount s config runtime ≤ 5
  · rcases @runFuzzer_locked campaign counted config attempt .restart hlocked with hrun | hrun
    · rw [hrestart hrun, if_pos hcount, if_pos hcount, if_neg Bool.false_ne_true]
      refine ⟨hgiven.1, .gaveUp, hgiven.2, fun hid hrelaunch => ?_⟩
      rw [runFuzzer_relaunches (show (counted.configLockFds.get config).isSome from hlocked) hid
        hrelaunch] at hrun
      cases (Prod.mk.inj hrun).2
    · obtain ⟨hcounts, sanitizerPrefix, hhistory⟩ := runFuzzer_true hrun
      rw [hrestart hrun, if_pos hcount, if_pos hcount, if_pos rfl]
      refine ⟨hcounts, .launched, fun config' => ?_, fun _ _ => rfl⟩
      rw [hhistory, fates_append, fates_launched]
  · rw [hrestart (Prod.mk.eta).symm, if_neg hcount, if_neg hcount]
    exact ⟨hgiven.1, .gaveUp, hgiven.2, fun _ _ => rfl⟩

/-! ## Runs -/

/-- An exit of a child, as the loop sees it. -/
structure ChildExit where
  config : Nat
  runtime : Int
  attempt : LaunchAttempt

/-- The states of the monitoring loop, with the exits it has seen so far. -/
inductive Watched (campaign : Campaign) (selected : List Nat) :
    List ChildExit → Supervisor → Prop
  | start {s : Supervisor} : Launches campaign selected .init s → Watched campaign selected [] s
  | exit {exits : List ChildExit} {s s' : Supervisor} {index pid config : Nat} {startedAt : Int}
      {e : ChildVisit} :
      Watched campaign selected exits s → s.fuzzerPids.get index = some pid →
      s.fuzzerConfigs.get pid = some config → s.fuzzerStartedAt.get pid = some startedAt →
      e.alive = false → Fresh (s.forget index pid) e.attempt → visit campaign s index e = .ok s' →
      Watched campaign selected (exits ++ [⟨config, e.now - startedAt, e.attempt⟩]) s'

/-- The measured runtimes of the children of a configuration. -/
def runtimes (config : Nat) (exits : List ChildExit) : List Int :=
  (exits.filter fun exit => exit.config = config).map ChildExit.runtime

theorem runtimes_concat (config : Nat) (exits : List ChildExit) (exit : ChildExit) :
    runtimes config (exits ++ [exit])
      = runtimes config exits ++ if exit.config = config then [exit.runtime] else [] := by
  rw [runtimes, List.filter_append, List.map_append, List.filter_singleton]
  by_cases h : exit.config = config <;> simp [h, runtimes]

theorem visit_exit {index pid : Nat} {startedAt : Int} {e : ChildVisit}
    (hpid : s.fuzzerPids.get index = some pid) (hconfig : s.fuzzerConfigs.get pid = some config)
    (hstarted : s.fuzzerStartedAt.get pid = some startedAt) (halive : e.alive = false)
    (hvisit : visit campaign s index e = .ok s') :
    s' = restart campaign (s.forget index pid) config (e.now - startedAt) e.attempt := by
  rw [visit, hpid] at hvisit
  simp only [halive, Bool.false_eq_true, if_false, hconfig, hstarted] at hvisit
  cases hfile : s.serverPidFiles.get pid with
  | none =>
      rw [hfile] at hvisit
      cases hvisit
  | some file =>
      rw [hfile] at hvisit
      exact (Except.ok.inj hvisit).symm

variable {selected : List Nat} {exits : List ChildExit}

theorem Watched.inv (hselected : campaign.Selects selected)
    (h : Watched campaign selected exits s) :
    ∃ status, Inv campaign status s ∧ Settled selected status := by
  induction h with
  | start hlaunches => exact LoopHead.inv hselected (.start hlaunches)
  | exit _ hpid _ _ _ hfresh hvisit ih =>
      obtain ⟨status, hinv, hs⟩ := ih
      obtain ⟨status', hinv', hsettles, -⟩ :=
        hinv.visit (Option.isSome_iff_exists.mpr ⟨_, hpid⟩) (fun pid' hpid' _ => by
          obtain rfl := Option.some.inj (hpid.symm.trans hpid')
          exact hfresh) hvisit
      exact ⟨status', hinv', hsettles.settled hs⟩

/-- Every poll of the loop is such a run. -/
theorem Watched.polls {indices : List Nat} {exit : Option SupervisorExit}
    (hpolls : Polls campaign indices s s' exit) :
    ∀ {exits : List ChildExit}, Watched campaign selected exits s →
      ∃ exits', Watched campaign selected exits' s' := by
  induction hpolls with
  | remain _ | noneRemain _ | fail _ => exact fun h => ⟨_, h⟩
  | @visit index indices s s' s'' exit e hfresh hvisit _ ih =>
      intro exits h
      cases halive : e.alive with
      | true =>
          have hsame : s' = s := by
            rw [Supervisor.visit] at hvisit
            cases hpid : s.fuzzerPids.get index with
            | none =>
                rw [hpid] at hvisit
                cases hvisit
            | some pid =>
                simp only [hpid, halive, if_true] at hvisit
                exact (Except.ok.inj hvisit).symm
          exact ih (hsame ▸ h)
      | false =>
          cases hpid : s.fuzzerPids.get index with
          | none =>
              rw [Supervisor.visit, hpid] at hvisit
              cases hvisit
          | some pid =>
              cases hconfig : s.fuzzerConfigs.get pid with
              | none =>
                  rw [Supervisor.visit, hpid] at hvisit
                  simp [halive, hconfig] at hvisit
              | some config =>
                  cases hstarted : s.fuzzerStartedAt.get pid with
                  | none =>
                      rw [Supervisor.visit, hpid] at hvisit
                      simp [halive, hconfig, hstarted] at hvisit
                  | some startedAt =>
                      exact ih (h.exit hpid hconfig hstarted halive (hfresh pid hpid halive) hvisit)

theorem LoopHead.watched (h : LoopHead campaign selected s) :
    ∃ exits, Watched campaign selected exits s := by
  induction h with
  | start hlaunches => exact ⟨[], .start hlaunches⟩
  | poll _ hpolls ih =>
      obtain ⟨exits, h⟩ := ih
      exact Watched.polls hpolls h

/-! ## The exits of one configuration -/

/-- What the tables and the history have about a configuration after its
exits with the runtimes `r`. -/
structure Followed (config : Nat) (r : List Int) (s : Supervisor) : Prop where
  counter : (s.rapidRestartCounts.get config).getD 0 = rapidCount r
  fates_eq : fates config s.history
    = .launched :: (List.range r.length).map fun i => fateAfter (r.take (i + 1))
  relaunched : ∀ i < r.length, ¬ CrashLoop (r.take i)

theorem Launches.fates {configs : List Nat} (h : Launches campaign configs s s')
    (hnodup : configs.Nodup) : s'.rapidRestartCounts = s.rapidRestartCounts
      ∧ ∀ config, Supervisor.fates config s'.history
        = Supervisor.fates config s.history ++ if config ∈ configs then [.launched] else [] := by
  induction h with
  | nil => exact ⟨rfl, fun config => by rw [if_neg List.not_mem_nil, List.append_nil]⟩
  | @cons first configs s s₁ s' attempt _ hrun _ ih =>
      obtain ⟨hnot, hnodup⟩ := List.nodup_cons.mp hnodup
      obtain ⟨hcounts, hfates⟩ := ih hnodup
      obtain ⟨hcounts', sanitizerPrefix, hhistory⟩ := runFuzzer_true hrun
      refine ⟨hcounts.trans hcounts', fun config => ?_⟩
      rw [hfates, hhistory, fates_append, fates_launched, List.append_assoc]
      rcases eq_or_ne first config with rfl | hc
      · rw [if_pos rfl, if_neg hnot, if_pos List.mem_cons_self, List.append_nil]
      · have hiff : config ∈ first :: configs ↔ config ∈ configs := by
          rw [List.mem_cons]
          exact or_iff_right (Ne.symm hc)
        rw [if_neg hc, List.nil_append]
        simp only [hiff]

theorem fateAfter_gaveUp {r : List Int} : fateAfter r = .gaveUp ↔ CrashLoop r := by
  unfold fateAfter
  split
  · next h => exact iff_of_true rfl h
  · next h => exact iff_of_false nofun h

/-- The configuration is given up exactly if its last exits were a crash
loop. -/
theorem Followed.gaveUp_iff {r : List Int} (h : Followed config r s) :
    .gaveUp config ∈ s.history ↔ CrashLoop r := by
  rw [← gaveUp_mem_fates, h.fates_eq, List.mem_cons, List.mem_map]
  constructor
  · rintro (hfirst | ⟨i, hi, hfate⟩)
    · cases hfirst
    · have hloop := fateAfter_gaveUp.mp hfate
      rw [List.mem_range] at hi
      by_cases hlast : i + 1 < r.length
      · exact absurd hloop (h.relaunched _ hlast)
      · rwa [List.take_of_length_le (not_lt.mp hlast)] at hloop
  · intro hloop
    have hlen := hloop.1
    refine .inr ⟨r.length - 1, List.mem_range.mpr (by omega), fateAfter_gaveUp.mpr ?_⟩
    rwa [Nat.sub_add_cancel (by omega), List.take_length]

/-- One more exit of the configuration. -/
theorem Followed.exit {r : List Int} {runtime : Int} (h : Followed config r s)
    (hlive : ¬ CrashLoop r)
    (hcounter : (s'.rapidRestartCounts.get config).getD 0 = nextCount s config runtime)
    (hfates : fates config s'.history
      = fates config s.history ++ [if nextCount s config runtime ≤ 5 then .launched else .gaveUp]) :
    Followed config (r ++ [runtime]) s' := by
  have hcount : nextCount s config runtime = rapidCount (r ++ [runtime]) := by
    rw [nextCount, h.counter, rapidCount_concat]
  have hfate : (if nextCount s config runtime ≤ 5 then Fate.launched else .gaveUp)
      = fateAfter (r ++ [runtime]) := by
    rw [hcount, fateAfter]
    simp only [rapidCount_le_iff]
    split_ifs <;> rfl
  refine ⟨hcounter.trans hcount, ?_, fun i hi => ?_⟩
  · rw [hfates, h.fates_eq, hfate, List.length_append, List.length_singleton, List.range_succ,
      List.map_append, List.map_singleton, List.cons_append,
      List.take_of_length_le (by rw [List.length_append, List.length_singleton])]
    refine congrArg (Fate.launched :: ·) (congrArg (· ++ _) (List.map_congr_left fun i hi => ?_))
    rw [List.take_append_of_le_length (List.mem_range.mp hi)]
  · rw [List.length_append, List.length_singleton, Nat.lt_succ_iff] at hi
    rw [List.take_append_of_le_length hi]
    by_cases hlast : i < r.length
    · exact h.relaunched i hlast
    · rwa [List.take_of_length_le (not_lt.mp hlast)]

/-- An exit of another configuration. -/
theorem Followed.frame {r : List Int} (h : Followed config r s)
    (hcounter : s'.rapidRestartCounts.get config = s.rapidRestartCounts.get config)
    (hfates : fates config s'.history = fates config s.history) : Followed config r s' :=
  ⟨hcounter ▸ h.counter, hfates ▸ h.fates_eq, h.relaunched⟩

theorem Watched.followed (hselected : campaign.Selects selected)
    (h : Watched campaign selected exits s) (hconfig : config ∈ selected)
    (hrelaunch : ∀ exit ∈ exits, exit.config = config → Relaunches exit.attempt) :
    Followed config (runtimes config exits) s := by
  have hid : config ∈ campaign.configIds := by
    cases hselected with
    | all => exact hconfig
    | one hmem => exact List.mem_singleton.mp hconfig ▸ hmem
  induction h with
  | start hlaunches =>
      obtain ⟨hcounts, hfates⟩ := hlaunches.fates (selects_nodup hselected)
      refine ⟨by rw [hcounts]; rfl, ?_, nofun⟩
      rw [hfates, if_pos hconfig]
      rfl
  | @exit exits s s' index pid config' startedAt e hwatched hpid hget hstarted halive _ hvisit ih =>
      have ih := ih fun exit hmem => hrelaunch exit (List.mem_append_left _ hmem)
      obtain ⟨status, hinv, -⟩ := hwatched.inv hselected
      have hrunning := hinv.config_running pid config' hget
      have hlocked : ((s.forget index pid).configLockFds.get config').isSome :=
        (hinv.locked config').mpr (.inl hrunning)
      obtain rfl := visit_exit hpid hget hstarted halive hvisit
      obtain ⟨hcounts, fate, hfates, hfate⟩ :=
        @restart_effect campaign (s.forget index pid) config' e.attempt hlocked (e.now - startedAt)
      rw [runtimes_concat]
      rcases eq_or_ne config' config with rfl | hc
      · rw [if_pos rfl]
        have hlive : ¬ CrashLoop (runtimes config' exits) := by
          rw [← ih.gaveUp_iff, hinv.gaveUp, hrunning]
          nofun
        refine ih.exit hlive (by rw [hcounts, AssocMap.get_set_self]; rfl) ?_
        rw [hfates, if_pos rfl, hfate hid (hrelaunch _
          (List.mem_append_right _ List.mem_cons_self) rfl)]
        rfl
      · rw [if_neg hc, List.append_nil]
        refine ih.frame ?_ ?_
        · rw [hcounts, AssocMap.get_set_of_ne _ (Ne.symm hc)]
          rfl
        · rw [hfates, if_neg hc, List.append_nil]
          rfl

/-- If its relaunches succeed, a configuration is launched again after each
exit up to the first one that makes a crash loop, and given up after that
one; the other configurations do not matter. -/
theorem crash_loop_detection (campaign : Campaign) {selected : List Nat}
    (hselected : campaign.Selects selected) {exits : List ChildExit} {s : Supervisor}
    (h : Watched campaign selected exits s) {config : Nat} (hconfig : config ∈ selected)
    (hrelaunch : ∀ exit ∈ exits, exit.config = config → Relaunches exit.attempt) :
    fates config s.history = .launched :: (List.range (runtimes config exits).length).map
        (fun i => if CrashLoop ((runtimes config exits).take (i + 1)) then .gaveUp else .launched)
      ∧ (∀ i < (runtimes config exits).length, ¬ CrashLoop ((runtimes config exits).take i))
      ∧ (¬ CrashLoop (runtimes config exits) → IsRunning s config)
      ∧ (CrashLoop (runtimes config exits) → IsGivenUp s config)
      ∧ (s.rapidRestartCounts.get config).getD 0 = rapidCount (runtimes config exits) := by
  have hfollowed := h.followed hselected hconfig hrelaunch
  obtain ⟨status, hinv, hs⟩ := h.inv hselected
  have hstatus := (hinv.bookkeeping hs).status config hconfig
  refine ⟨hfollowed.fates_eq, hfollowed.relaunched, fun hlive => hstatus.resolve_right ?_,
    fun hloop => hstatus.resolve_left ?_, hfollowed.counter⟩
  · exact fun hgiven => hlive (hfollowed.gaveUp_iff.mp hgiven.2.2)
  · exact fun hrunning => hrunning.2.2 (hfollowed.gaveUp_iff.mpr hloop)

/-! ## A crash loop -/

/-- The state after that many exits, each five seconds after the launch. -/
def demoCrashed : Nat → Supervisor
  | 0 => demoStarted
  | n + 1 =>
      restart demoCampaign ((demoCrashed n).forget 0 (100 + n)) 1 5 (demoAttempt 11 (101 + n))

def demoExits (n : Nat) : List ChildExit :=
  (List.range n).map fun k => ⟨1, 5, demoAttempt 11 (101 + k)⟩

theorem demo_crashes : ∀ n ≤ 6, Watched demoCampaign [1] (demoExits n) (demoCrashed n)
  | 0, _ => .start (.cons (⟨by decide, rfl⟩ : Fresh .init (demoAttempt 10 100)) rfl .nil)
  | n + 1, hn => by
      have hwatched := demo_crashes n (by omega)
      have hcases : n = 0 ∨ n = 1 ∨ n = 2 ∨ n = 3 ∨ n = 4 ∨ n = 5 := by omega
      have hexits : demoExits (n + 1) = demoExits n ++ [⟨1, 5 - 0, demoAttempt 11 (101 + n)⟩] := by
        rw [demoExits, List.range_succ, List.map_append]
        rfl
      rw [hexits]
      refine @Watched.exit _ _ _ _ _ 0 (100 + n) 1 0 ⟨false, 5, demoAttempt 11 (101 + n)⟩ hwatched
        ?_ ?_ ?_ rfl ⟨?_, ?_⟩ ?_
      all_goals rcases hcases with rfl | rfl | rfl | rfl | rfl | rfl
      all_goals first | rfl | decide

/-- The sixth exit is the last. -/
theorem crash_loop_detection_demo :
    fates 1 (demoCrashed 6).history =
        [.launched, .launched, .launched, .launched, .launched, .launched, .gaveUp]
      ∧ IsGivenUp (demoCrashed 6) 1 := by
  have hrelaunch : ∀ exit ∈ demoExits 6, exit.config = 1 → Relaunches exit.attempt := by
    intro exit hmem _
    obtain ⟨k, -, rfl⟩ := List.mem_map.mp hmem
    exact ⟨rfl, rfl⟩
  obtain ⟨hfates, -, -, hgivenUp, -⟩ := crash_loop_detection demoCampaign (.one (by decide))
    (demo_crashes 6 le_rfl) List.mem_cons_self hrelaunch
  exact ⟨hfates.trans (by decide), hgivenUp (by decide)⟩

end Supervisor

end LighttpdFuzz

import LighttpdFuzz.Script

/-!
# Stopping process groups from a script

A script has children, each the leader of a process group of its own. It
asks a group to end (`TERM`), polls for a bounded time, and forces what is
left (`KILL`). The processes end when they like; what has ended stays
ended, so that the number of a group does not come back (`Quiet`).

`Asked` and `Forced` say of a group that, if anything of it is left, it
has got the signal. Once true they stay true: the others only let groups
end, and the actions of such scripts are `Tame`. So a loop over the groups
brings them about for all (`askEach`, `forceEach`), whatever happens
meanwhile, and `InOrder` holds along the way: no group is forced before it
has been asked.
-/

namespace ProcessGroups

open Script

inductive Signal where
  | term | kill
  deriving DecidableEq, Repr

inductive Target where
  | process (pid : Nat)
  | group (pid : Nat)
  deriving DecidableEq, Repr

def Target.pid : Target → Nat
  | process pid | group pid => pid

/-- A child, as `kill` and `wait` see it. -/
inductive ChildPhase where
  | running
  /-- It has ended; `reaped` once the shell has taken note of its status. -/
  | ended (status : Nat) (reaped : Bool)
  deriving DecidableEq, Repr

/-- The children of a script, the signals it has sent, and what else there
is in its state. -/
structure Processes (ξ : Type) where
  /-- `running` -/
  running : Bool
  phase : Nat → ChildPhase
  /-- Whether the group of a child has other processes. -/
  others : Nat → Bool
  /-- The signals that have reached something. -/
  signals : List (Signal × Target)
  extra : ξ

namespace Processes

variable {ξ : Type}

/-- `kill -0 "$pid"` -/
def present (s : Processes ξ) (pid : Nat) : Bool :=
  match s.phase pid with
  | .ended _ true => false
  | _ => true

/-- `kill -0 -- "-$pid"` -/
def alive (s : Processes ξ) (pid : Nat) : Bool := s.present pid || s.others pid

def reaches (s : Processes ξ) : Target → Bool
  | .process pid => s.present pid
  | .group pid => s.alive pid

/-- `kill -SIGNAL` -/
def send (signal : Signal) (target : Target) (s : Processes ξ) : Processes ξ :=
  if s.reaches target then { s with signals := s.signals ++ [(signal, target)] } else s

/-- `running=0` -/
def clearRunning (s : Processes ξ) : Processes ξ := { s with running := false }

/-- `kill -0 -- "-$pid" && running=1` -/
def noteAlive (pid : Nat) (s : Processes ξ) : Processes ξ :=
  if s.alive pid then { s with running := true } else s

def hasEnded (s : Processes ξ) (pid : Nat) : Bool :=
  match s.phase pid with
  | .running => false
  | .ended _ _ => true

/-- What `wait` leaves: the status of the child has been read. -/
def reap (pid : Nat) (s : Processes ξ) : Processes ξ :=
  { s with phase := fun pid' =>
      if pid' = pid then
        match s.phase pid with
        | .ended status _ => .ended status true
        | .running => .running
      else s.phase pid' }

/-- The child has ended, and `wait` gives the status. -/
def EndedWith (s : Processes ξ) (pid status : Nat) : Prop :=
  ∃ reaped, s.phase pid = .ended status reaped

theorem hasEnded_iff {s : Processes ξ} {pid : Nat} :
    s.hasEnded pid = true ↔ ∃ status, s.EndedWith pid status := by
  unfold hasEnded EndedWith
  cases s.phase pid with
  | running => simp
  | ended status reaped => simp

theorem EndedWith.unique {s : Processes ξ} {pid status status' : Nat}
    (h : s.EndedWith pid status) (h' : s.EndedWith pid status') : status = status' := by
  obtain ⟨reaped, h⟩ := h
  obtain ⟨reaped', h'⟩ := h'
  rw [h] at h'
  cases h'
  rfl

/-! What the actions leave alone. -/

@[simp] theorem extra_send (signal : Signal) (target : Target) (s : Processes ξ) :
    (s.send signal target).extra = s.extra := by
  unfold send
  split <;> rfl

@[simp] theorem phase_send (signal : Signal) (target : Target) (s : Processes ξ) :
    (s.send signal target).phase = s.phase := by
  unfold send
  split <;> rfl

theorem mem_send_group {signal signal' : Signal} {pid pid' : Nat} {s : Processes ξ} :
    (signal, .process pid) ∈ (s.send signal' (.group pid')).signals
      ↔ (signal, .process pid) ∈ s.signals := by
  unfold send
  split
  · simp
  · rfl

@[simp] theorem extra_noteAlive (pid : Nat) (s : Processes ξ) :
    (s.noteAlive pid).extra = s.extra := by
  unfold noteAlive
  split <;> rfl

@[simp] theorem phase_noteAlive (pid : Nat) (s : Processes ξ) :
    (s.noteAlive pid).phase = s.phase := by
  unfold noteAlive
  split <;> rfl

@[simp] theorem signals_noteAlive (pid : Nat) (s : Processes ξ) :
    (s.noteAlive pid).signals = s.signals := by
  unfold noteAlive
  split <;> rfl

end Processes

/-! ## Scripts -/

section Scripts

variable {ξ : Type}

/-- One round over the groups. -/
def poll (pids : List Nat) : Script (Processes ξ) :=
  seq (act .clearRunning) (forEach pids fun pid => act (.noteAlive pid))

/-- `for _ in {1..rounds}; do ...; [ "$running" -eq 0 ] && break; done` -/
def waitForGroups (rounds : Nat) (pids : List Nat) : Script (Processes ξ) :=
  upTo rounds (poll pids) fun s => !s.running

/-- `kill -TERM -- "-$pid" 2>/dev/null || true` -/
def ask (pid : Nat) : Script (Processes ξ) := act (.send .term (.group pid))

/-- A group of which something is left is asked. -/
def askIfAlive (pid : Nat) : Script (Processes ξ) := ite (·.alive pid) (ask pid) skip

/-- A group of which something is left is forced. -/
def forceIfAlive (pid : Nat) : Script (Processes ξ) :=
  ite (·.alive pid) (act (.send .kill (.group pid))) skip

/-- `wait "$pid"` -/
def waitFor (pid : Nat) : Script (Processes ξ) := seq (await (·.hasEnded pid)) (act (.reap pid))

end Scripts

/-! ## What the others do -/

/-- What can become of a child. -/
inductive PhaseStep : ChildPhase → ChildPhase → Prop
  | same {phase : ChildPhase} : PhaseStep phase phase
  | ends {status : Nat} {reaped : Bool} : PhaseStep .running (.ended status reaped)
  | reaps {status : Nat} : PhaseStep (.ended status false) (.ended status true)

/-- What has ended keeps its status. -/
theorem PhaseStep.ended {phase phase' : ChildPhase} (h : PhaseStep phase phase') {status : Nat} :
    (∃ reaped, phase = .ended status reaped) → ∃ reaped, phase' = .ended status reaped := by
  rintro ⟨reaped, rfl⟩
  cases h with
  | same => exact ⟨reaped, rfl⟩
  | reaps => exact ⟨true, rfl⟩

variable {ξ : Type}

theorem phaseStep_reap (pid pid' : Nat) (s : Processes ξ) :
    PhaseStep (s.phase pid') ((s.reap pid).phase pid') := by
  unfold Processes.reap
  by_cases heq : pid' = pid
  · subst heq
    simp only [if_pos]
    cases s.phase pid' with
    | running => exact .same
    | ended status reaped =>
        cases reaped with
        | false => exact .reaps
        | true => exact .same
  · simp only [if_neg heq]
    exact .same

/-- The variables of the script are its own, and what has ended stays
ended. -/
structure Quiet (s s' : Processes ξ) : Prop where
  running : s'.running = s.running
  signals : s'.signals = s.signals
  phase : ∀ pid, PhaseStep (s.phase pid) (s'.phase pid)
  gone : ∀ pid, s.alive pid = false → s'.alive pid = false

/-- Nothing comes to life, and no signal is taken back. -/
structure Tame (f : Processes ξ → Processes ξ) : Prop where
  gone : ∀ s pid, s.alive pid = false → (f s).alive pid = false
  signals : ∀ s, s.signals ⊆ (f s).signals

theorem tame_send (signal : Signal) (target : Target) :
    Tame (ξ := ξ) (.send signal target) where
  gone s pid h := by
    unfold Processes.send
    split
    · exact h
    · exact h
  signals s := by
    unfold Processes.send
    split
    · exact List.subset_append_left _ _
    · exact List.Subset.refl _

theorem tame_clearRunning : Tame (ξ := ξ) .clearRunning where
  gone _ _ h := h
  signals _ := List.Subset.refl _

theorem tame_noteAlive (pid : Nat) : Tame (ξ := ξ) (.noteAlive pid) where
  gone s pid' h := by
    unfold Processes.noteAlive
    split
    · exact h
    · exact h
  signals s := by
    unfold Processes.noteAlive
    split
    · exact List.Subset.refl _
    · exact List.Subset.refl _

theorem tame_reap (pid : Nat) : Tame (ξ := ξ) (.reap pid) where
  gone s pid' h := by
    obtain ⟨hpresent, hothers⟩ := Bool.or_eq_false_iff.mp h
    refine Bool.or_eq_false_iff.mpr ⟨?_, hothers⟩
    unfold Processes.present at hpresent ⊢
    unfold Processes.reap
    by_cases heq : pid' = pid
    · subst heq
      simp only [if_pos]
      split at hpresent
      · next hphase => rw [hphase]
      · cases hpresent
    · simp only [if_neg heq]
      exact hpresent
  signals _ := List.Subset.refl _

/-! ## Asked and forced -/

def Asked (pid : Nat) (s : Processes ξ) : Prop :=
  s.alive pid = true → (.term, .group pid) ∈ s.signals

def Forced (pid : Nat) (s : Processes ξ) : Prop :=
  s.alive pid = true → (.kill, .group pid) ∈ s.signals

/-- Each group that was forced had been asked before. -/
def InOrder (s : Processes ξ) : Prop :=
  ∀ before after pid, s.signals = before ++ (.kill, .group pid) :: after →
    (.term, .group pid) ∈ before

section Rely

variable {rely : Processes ξ → Processes ξ → Prop}

theorem alive_of_quiet {s s' : Processes ξ} (h : Quiet s s') {pid : Nat}
    (halive : s'.alive pid = true) : s.alive pid = true := by
  cases hold : s.alive pid with
  | true => rfl
  | false => rw [h.gone pid hold] at halive; cases halive

theorem Tame.alive {f : Processes ξ → Processes ξ} (h : Tame f) {s : Processes ξ} {pid : Nat}
    (halive : (f s).alive pid = true) : s.alive pid = true := by
  cases hold : s.alive pid with
  | true => rfl
  | false => rw [h.gone s pid hold] at halive; cases halive

/-- A group has got a signal, if anything of it is left. -/
theorem stable_told (hquiet : ∀ s s', rely s s' → Quiet s s') (signal : Signal) (pid : Nat) :
    Stable rely fun s : Processes ξ => s.alive pid = true → (signal, .group pid) ∈ s.signals := by
  intro s s' hrely h halive
  rw [(hquiet s s' hrely).signals]
  exact h (alive_of_quiet (hquiet s s' hrely) halive)

theorem told_of_tame {f : Processes ξ → Processes ξ} (hf : Tame f) {signal : Signal} {pid : Nat}
    {s : Processes ξ} (h : s.alive pid = true → (signal, .group pid) ∈ s.signals) :
    (f s).alive pid = true → (signal, .group pid) ∈ (f s).signals :=
  fun halive => hf.signals s (h (hf.alive halive))

theorem stable_inOrder (hquiet : ∀ s s', rely s s' → Quiet s s') :
    Stable rely (InOrder : Processes ξ → Prop) := by
  intro s s' hrely h before after pid heq
  rw [(hquiet s s' hrely).signals] at heq
  exact h before after pid heq

/-- A signal that forces no group, or one that has been asked. -/
theorem InOrder.send {s : Processes ξ} (h : InOrder s) {signal : Signal} {target : Target}
    (hasked : ∀ pid, signal = .kill → target = .group pid → Asked pid s) :
    InOrder (s.send signal target) := by
  unfold Processes.send
  split
  · next hreaches =>
      intro before after pid heq
      rcases List.append_eq_append_iff.mp heq with ⟨more, hbefore, hrest⟩ | ⟨more, hall, hrest⟩
      · cases more with
        | nil =>
            rw [List.append_nil] at hbefore
            obtain ⟨hlast, -⟩ := List.cons.inj hrest
            obtain ⟨rfl, rfl⟩ := Prod.mk.inj hlast
            rw [hbefore]
            exact hasked pid rfl rfl hreaches
        | cons x more => simp at hrest
      · cases more with
        | nil =>
            rw [List.append_nil] at hall
            obtain ⟨hlast, -⟩ := List.cons.inj hrest
            obtain ⟨rfl, rfl⟩ := Prod.mk.inj hlast
            rw [← hall]
            exact hasked pid rfl rfl hreaches
        | cons x more =>
            obtain ⟨rfl, hafter⟩ := List.cons.inj hrest
            exact h before more pid hall
  · exact h

/-! ## The steps of stopping -/

section Steps

variable (hquiet : ∀ s s', rely s s' → Quiet s s')
include hquiet

theorem stable_asked (pid : Nat) : Stable rely (Asked (ξ := ξ) pid) :=
  stable_told hquiet .term pid

theorem stable_forced (pid : Nat) : Stable rely (Forced (ξ := ξ) pid) :=
  stable_told hquiet .kill pid

theorem ask_spec (pid : Nat) :
    Triple rely (InOrder : Processes ξ → Prop) (ask pid) fun s => InOrder s ∧ Asked pid s := by
  have hin := stable_inOrder (ξ := ξ) hquiet
  refine .act hin (hin.and (stable_asked hquiet pid)) fun s hs => ⟨hs.send nofun, ?_⟩
  intro halive
  have hold := (tame_send (ξ := ξ) .term (.group pid)).alive halive
  unfold Processes.send
  rw [if_pos (show s.reaches (.group pid) = true from hold)]
  exact List.mem_append_right _ (List.mem_singleton_self _)

theorem askIfAlive_spec (pid : Nat) :
    Triple rely (InOrder : Processes ξ → Prop) (askIfAlive pid) fun s =>
      InOrder s ∧ Asked pid s := by
  have hin := stable_inOrder (ξ := ξ) hquiet
  have hboth := hin.and (stable_asked hquiet pid)
  refine .ite hin hboth (fun _ hs _ => hs) (fun s hs hgone => ⟨hs, ?_⟩) (ask_spec hquiet pid)
    (.skip hboth)
  intro halive
  rw [hgone] at halive
  cases halive

theorem forceIfAlive_spec (pid : Nat) :
    Triple rely (fun s : Processes ξ => InOrder s ∧ Asked pid s) (forceIfAlive pid) fun s =>
      InOrder s ∧ Forced pid s := by
  have hin := stable_inOrder (ξ := ξ) hquiet
  have hasked := hin.and (stable_asked hquiet pid)
  have hforced := hin.and (stable_forced hquiet pid)
  have hforce : Triple rely (fun s : Processes ξ => InOrder s ∧ Asked pid s)
      (.act (.send .kill (.group pid))) fun s => InOrder s ∧ Forced pid s := by
    refine .act hasked hforced fun s hs => ⟨hs.1.send ?_, fun halive => ?_⟩
    · rintro pid' - heq
      cases heq
      exact hs.2
    · have hold := (tame_send (ξ := ξ) .kill (.group pid)).alive halive
      unfold Processes.send
      rw [if_pos (show s.reaches (.group pid) = true from hold)]
      exact List.mem_append_right _ (List.mem_singleton_self _)
  refine .ite hasked hforced (fun _ hs _ => hs) (fun s hs hgone => ⟨hs.1, fun halive => ?_⟩)
    hforce (.skip hforced)
  rw [hgone] at halive
  cases halive

end Steps

/-- The script has tame actions only. -/
def TameScript (c : Script (Processes ξ)) : Prop := ∀ f, c.IsAction f → Tame f

theorem TameScript.keeps_told (hquiet : ∀ s s', rely s s' → Quiet s s')
    {c : Script (Processes ξ)} (hc : TameScript c) (signal : Signal) (pid : Nat) :
    Triple rely (fun s => s.alive pid = true → (signal, .group pid) ∈ s.signals) c
      fun s => s.alive pid = true → (signal, .group pid) ∈ s.signals :=
  .keeps (stable_told hquiet signal pid) fun f hf _ hs => told_of_tame (hc f hf) hs

theorem TameScript.keeps_allTold (hquiet : ∀ s s', rely s s' → Quiet s s')
    {c : Script (Processes ξ)} (hc : TameScript c) (signal : Signal) (pids : List Nat) :
    Triple rely (fun s => ∀ pid ∈ pids, s.alive pid = true → (signal, .group pid) ∈ s.signals) c
      fun s => ∀ pid ∈ pids, s.alive pid = true → (signal, .group pid) ∈ s.signals :=
  fun s t hs hexec pid hpid => hc.keeps_told hquiet signal pid s t (hs pid hpid) hexec

theorem tameScript_ask (pid : Nat) : TameScript (ξ := ξ) (ask pid) := by
  rintro f rfl
  exact tame_send _ _

theorem tameScript_askIfAlive (pid : Nat) : TameScript (ξ := ξ) (askIfAlive pid) := by
  rintro f (hf | hf)
  · exact tameScript_ask pid f hf
  · cases hf

theorem tameScript_forceIfAlive (pid : Nat) : TameScript (ξ := ξ) (forceIfAlive pid) := by
  rintro f (rfl | hf)
  · exact tame_send _ _
  · cases hf

theorem tameScript_waitFor (pid : Nat) : TameScript (ξ := ξ) (waitFor pid) := by
  rintro f (hf | rfl)
  · cases hf
  · exact tame_reap pid

theorem TameScript.forEach {α : Type} {body : α → Script (Processes ξ)} {xs : List α}
    (h : ∀ x ∈ xs, TameScript (body x)) : TameScript (forEach xs body) := by
  intro f hf
  obtain ⟨x, hx, hf⟩ := isAction_forEach.mp hf
  exact h x hx f hf

theorem tameScript_waitForGroups (rounds : Nat) (pids : List Nat) :
    TameScript (ξ := ξ) (waitForGroups rounds pids) := by
  intro f hf
  rcases isAction_upTo hf with rfl | hf
  · exact tame_clearRunning
  · obtain ⟨pid, -, rfl⟩ := isAction_forEach.mp hf
    exact tame_noteAlive pid

/-- The script sends no signal, and reads at most the status of what has
ended. -/
structure SilentScript (c : Script (Processes ξ)) : Prop where
  signals : ∀ f, c.IsAction f → ∀ s, (f s).signals = s.signals
  tame : TameScript c

theorem silentScript_waitFor (pid : Nat) : SilentScript (ξ := ξ) (waitFor pid) where
  signals := by
    rintro f (hf | rfl) s
    · cases hf
    · rfl
  tame := tameScript_waitFor pid

theorem silentScript_waitForGroups (rounds : Nat) (pids : List Nat) :
    SilentScript (ξ := ξ) (waitForGroups rounds pids) where
  signals f hf s := by
    rcases isAction_upTo hf with rfl | hf
    · rfl
    · obtain ⟨pid, -, rfl⟩ := isAction_forEach.mp hf
      exact Processes.signals_noteAlive pid s
  tame := tameScript_waitForGroups rounds pids

theorem SilentScript.forEach {α : Type} {body : α → Script (Processes ξ)} {xs : List α}
    (h : ∀ x, SilentScript (body x)) : SilentScript (forEach xs body) where
  signals f hf := by
    obtain ⟨x, -, hf⟩ := isAction_forEach.mp hf
    exact (h x).signals f hf
  tame := .forEach fun x _ => (h x).tame

theorem SilentScript.keeps_inOrder (hquiet : ∀ s s', rely s s' → Quiet s s')
    {c : Script (Processes ξ)} (hc : SilentScript c) :
    Triple rely InOrder c (InOrder : Processes ξ → Prop) := by
  refine .keeps (stable_inOrder hquiet) fun f hf s hs before after pid heq => ?_
  rw [hc.signals f hf s] at heq
  exact hs before after pid heq

theorem stable_allTold (hquiet : ∀ s s', rely s s' → Quiet s s') (signal : Signal)
    (pids : List Nat) : Stable rely fun s : Processes ξ =>
      ∀ pid ∈ pids, s.alive pid = true → (signal, .group pid) ∈ s.signals :=
  .forall fun pid => .imp fun _ => stable_told hquiet signal pid

/-- A loop that asks each group. -/
theorem askEach (hquiet : ∀ s s', rely s s' → Quiet s s') {pids : List Nat}
    {body : Nat → Script (Processes ξ)} (htame : ∀ pid, TameScript (body pid))
    (h : ∀ pid, Triple rely InOrder (body pid) fun s => InOrder s ∧ Asked pid s) :
    Triple rely InOrder (Script.forEach pids body) fun s =>
      InOrder s ∧ ∀ pid ∈ pids, Asked pid s := by
  refine .each (stable_inOrder hquiet) (fun pid _ => stable_asked hquiet pid)
    (fun pid _ => h pid) fun pid _ pid' _ => ?_
  exact ((htame pid').keeps_told hquiet .term pid).weaken (fun _ hs => hs.2) fun _ hs => hs

/-- A loop that forces each group, where all have been asked. -/
theorem forceEach (hquiet : ∀ s s', rely s s' → Quiet s s') {pids : List Nat}
    {body : Nat → Script (Processes ξ)} (htame : ∀ pid, TameScript (body pid))
    (h : ∀ pid, Triple rely (fun s => InOrder s ∧ Asked pid s) (body pid) fun s =>
      InOrder s ∧ Forced pid s) :
    Triple rely (fun s => InOrder s ∧ ∀ pid ∈ pids, Asked pid s) (Script.forEach pids body)
      fun s => InOrder s ∧ ∀ pid ∈ pids, Forced pid s := by
  have hasked : Stable rely fun s : Processes ξ => ∀ pid ∈ pids, Asked pid s :=
    stable_allTold hquiet .term pids
  have hloop := @Triple.each _ _ _ (fun s => InOrder s ∧ ∀ pid ∈ pids, Asked pid s) pids body
    Forced ((stable_inOrder hquiet).and hasked) (fun pid _ => stable_forced hquiet pid) ?_ ?_
  · exact hloop.weaken (fun _ hs => hs) fun _ hs => ⟨hs.1.1, hs.2⟩
  · intro pid hpid s t hs hexec
    obtain ⟨horder, hforced⟩ := h pid s t ⟨hs.1, hs.2 pid hpid⟩ hexec
    refine ⟨⟨horder, fun pid' hpid' => ?_⟩, hforced⟩
    exact (htame pid).keeps_told hquiet .term pid' s t (hs.2 pid' hpid') hexec
  · intro pid _ pid' _
    exact ((htame pid').keeps_told hquiet .kill pid).weaken (fun _ hs => hs.2) fun _ hs => hs

end Rely

end ProcessGroups

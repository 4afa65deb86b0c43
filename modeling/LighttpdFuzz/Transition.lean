import Mathlib.Init

/-!
# Labelled transition systems

Processes that act one step at a time, in any order: a step relation with
labels. What holds at the beginning and is kept by every step holds in
every reachable state (`Reachable.invariant`). A run also has its history,
which says in which states which steps were made (`Run`).
-/

/-- A system that starts in some states and makes labelled steps. -/
structure TransitionSystem (σ α : Type) where
  init : σ → Prop
  step : σ → α → σ → Prop

namespace TransitionSystem

variable {σ α : Type} {system : TransitionSystem σ α}

inductive Reachable (system : TransitionSystem σ α) : σ → Prop
  | start {s : σ} : system.init s → Reachable system s
  | step {s s' : σ} {a : α} : Reachable system s → system.step s a s' → Reachable system s'

theorem Reachable.invariant {inv : σ → Prop} (hinit : ∀ s, system.init s → inv s)
    (hstep : ∀ s a s', inv s → system.step s a s' → inv s') {s : σ}
    (h : system.Reachable s) : inv s := by
  induction h with
  | start h => exact hinit _ h
  | step _ hs ih => exact hstep _ _ _ ih hs

/-- Where steps lead to from `s`. -/
inductive Leads (system : TransitionSystem σ α) (s : σ) : σ → Prop
  | refl : Leads system s s
  | step {s' s'' : σ} {a : α} : Leads system s s' → system.step s' a s'' → Leads system s s''

/-- What every step keeps, in reachable states, is kept for good. -/
theorem Leads.persists {p : σ → Prop}
    (hstep : ∀ s a s', system.Reachable s → p s → system.step s a s' → p s') {s s' : σ}
    (h : system.Leads s s') (hs : system.Reachable s) (hp : p s) : system.Reachable s' ∧ p s' := by
  induction h with
  | refl => exact ⟨hs, hp⟩
  | step _ hstep' ih => exact ⟨ih.1.step hstep', hstep _ _ _ ih.1 ih.2 hstep'⟩

/-- A run to a state, with its steps in order. -/
inductive Run (system : TransitionSystem σ α) : List (σ × α) → σ → Prop
  | start {s : σ} : system.init s → Run system [] s
  | step {steps : List (σ × α)} {s s' : σ} {a : α} :
      Run system steps s → system.step s a s' → Run system (steps ++ [(s, a)]) s'

theorem Run.reachable {steps : List (σ × α)} {s : σ} (h : system.Run steps s) :
    system.Reachable s := by
  induction h with
  | start h => exact .start h
  | step _ hs ih => exact ih.step hs

/-- Where every step lowers a number, a run has no more steps than the
number at its beginning. -/
theorem Run.length_add_le {m : σ → Nat} {n : Nat}
    (hinit : ∀ s, system.init s → m s ≤ n)
    (hstep : ∀ s a s', system.Reachable s → system.step s a s' → m s' < m s)
    {steps : List (σ × α)} {s : σ} (h : system.Run steps s) :
    steps.length + m s ≤ n := by
  induction h with
  | start h =>
      rw [List.length_nil, Nat.zero_add]
      exact hinit _ h
  | step hrun hs ih =>
      have hlt := hstep _ _ _ hrun.reachable hs
      rw [List.length_append, List.length_singleton]
      omega

/-- An invariant that steps keep if they meet a condition. -/
theorem Run.invariant_of_steps {inv : σ → Prop} {fine : σ × α → Prop}
    (hinit : ∀ s, system.init s → inv s)
    (hstep : ∀ s a s', system.Reachable s → inv s → fine (s, a) → system.step s a s' → inv s')
    {steps : List (σ × α)} {s : σ} (h : system.Run steps s)
    (hfine : ∀ step ∈ steps, fine step) : inv s := by
  induction h with
  | start h => exact hinit _ h
  | step hrun hs ih =>
      refine hstep _ _ _ hrun.reachable (ih ?_) ?_ hs
      · exact fun step hmem => hfine step (List.mem_append_left _ hmem)
      · exact hfine _ (List.mem_append_right _ (List.mem_singleton_self _))

/-- What a step that misses the condition brings about, and every step
keeps. -/
theorem Run.persists_of_step {bad : σ → Prop} {fine : σ × α → Prop}
    (hbegin : ∀ s a s', system.Reachable s → ¬ fine (s, a) → system.step s a s' → bad s')
    (hstep : ∀ s a s', bad s → system.step s a s' → bad s')
    {steps : List (σ × α)} {s : σ} (h : system.Run steps s)
    (hbad : ¬ ∀ step ∈ steps, fine step) : bad s := by
  induction h with
  | start => exact absurd nofun hbad
  | @step steps s s' a hrun hs ih =>
      by_cases hsteps : ∀ step ∈ steps, fine step
      · refine hbegin s a s' hrun.reachable (fun hfine => hbad ?_) hs
        intro step hmem
        rcases List.mem_append.mp hmem with hmem | hmem
        · exact hsteps step hmem
        · rw [List.mem_singleton.mp hmem]
          exact hfine
      · exact hstep s a s' (ih hsteps) hs

end TransitionSystem

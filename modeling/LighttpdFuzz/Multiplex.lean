import Mathlib.Logic.Function.Basic
import Mathlib.Data.List.Basic

/-!
# Sessions that share one stream

A machine handles the records of one session: it starts and ends with no
state. Many sessions share a stream when every record carries a key and a
table holds the state of each key. The table knows nothing of sessions,
only of keys, and a key may serve several sessions one after the other.

`run_interleaved`: if no two sessions with the same key are open at the
same time, and every session taken alone runs to its end with certain
outputs, then any interleaving runs to its end, and every record has the
output that it has in its own session.
-/

namespace Multiplex

variable {κ σ ρ ω ε ι : Type} [DecidableEq ι]

/-- One session's machine; `none` is no session. -/
abbrev Machine (σ ρ ω ε : Type) := Option σ → ρ → Except ε (Option σ × ω)

/-- The records of a single session. -/
def runAlone (step : Machine σ ρ ω ε) : Option σ → List ρ → Except ε (Option σ × List ω)
  | state, [] => .ok (state, [])
  | state, record :: records =>
      match step state record with
      | .error e => .error e
      | .ok (state, out) =>
          match runAlone step state records with
          | .error e => .error e
          | .ok (state, outs) => .ok (state, out :: outs)

/-- A stream of records, each for the session that its key has now. -/
def run [DecidableEq κ] (step : Machine σ ρ ω ε) :
    (κ → Option σ) → List (κ × ρ) → Except ε ((κ → Option σ) × List ω)
  | table, [] => .ok (table, [])
  | table, record :: records =>
      match step (table record.1) record.2 with
      | .error e => .error e
      | .ok (state, out) =>
          match run step (Function.update table record.1 state) records with
          | .error e => .error e
          | .ok (table, outs) => .ok (table, out :: outs)

variable {step : Machine σ ρ ω ε}

theorem runAlone_cons {state : Option σ} {record : ρ} {records : List ρ} {last : Option σ}
    {outs : List ω} (h : runAlone step state (record :: records) = .ok (last, outs)) :
    ∃ next out outs', step state record = .ok (next, out)
      ∧ runAlone step next records = .ok (last, outs') ∧ outs = out :: outs' := by
  unfold runAlone at h
  split at h
  · cases h
  · next next out hstep =>
      split at h
      · cases h
      · next hrest =>
          cases h
          exact ⟨next, out, _, hstep, hrest, rfl⟩

theorem runAlone_step {state next last : Option σ} {record : ρ} {records : List ρ} {out : ω}
    {outs : List ω} (hstep : step state record = .ok (next, out))
    (hrest : runAlone step next records = .ok (last, outs)) :
    runAlone step state (record :: records) = .ok (last, out :: outs) := by
  rw [runAlone, hstep]
  simp only [hrest]

theorem runAlone_append {last : Option σ} {second : List ρ} {outs₂ : List ω} :
    ∀ {first : List ρ} {state mid : Option σ} {outs₁ : List ω},
    runAlone step state first = .ok (mid, outs₁) → runAlone step mid second = .ok (last, outs₂) →
    runAlone step state (first ++ second) = .ok (last, outs₁ ++ outs₂)
  | [], state, mid, outs₁, h₁, h₂ => by
      cases h₁
      exact h₂
  | record :: first, state, mid, outs₁, h₁, h₂ => by
      obtain ⟨next, out, outs, hstep, hrest, rfl⟩ := runAlone_cons h₁
      exact runAlone_step hstep (runAlone_append hrest h₂)

theorem run_cons [DecidableEq κ] {table next : κ → Option σ} {record : κ × ρ}
    {records : List (κ × ρ)}
    {state : Option σ} {out : ω} {outs : List ω}
    (hstep : step (table record.1) record.2 = .ok (state, out))
    (hrest : run step (Function.update table record.1 state) records = .ok (next, outs)) :
    run step table (record :: records) = .ok (next, out :: outs) := by
  rw [run, hstep]
  simp only [hrest]

theorem run_cons_ok [DecidableEq κ] {table last : κ → Option σ} {record : κ × ρ}
    {records : List (κ × ρ)} {outs : List ω}
    (h : run step table (record :: records) = .ok (last, outs)) :
    ∃ state out outs', step (table record.1) record.2 = .ok (state, out)
      ∧ run step (Function.update table record.1 state) records = .ok (last, outs')
      ∧ outs = out :: outs' := by
  unfold run at h
  split at h
  · cases h
  · next state out hstep =>
      split at h
      · cases h
      · next hrest =>
          cases h
          exact ⟨state, out, _, hstep, hrest, rfl⟩

/-- The records of one session only. -/
theorem run_single [DecidableEq κ] {k : κ} {last : Option σ} :
    ∀ {records : List ρ} {table : κ → Option σ} {outs : List ω},
    runAlone step (table k) records = .ok (last, outs) →
    run step table (records.map fun record => (k, record))
      = .ok (Function.update table k last, outs)
  | [], table, outs, h => by
      cases h
      rw [Function.update_eq_self]
      rfl
  | record :: records, table, outs, h => by
      obtain ⟨next, out, outs', hstep, hrest, rfl⟩ := runAlone_cons h
      have hrest' : runAlone step (Function.update table k next k) records
          = .ok (last, outs') := by
        rw [Function.update_self]
        exact hrest
      have ih := run_single hrest'
      rw [Function.update_idem] at ih
      exact run_cons hstep ih

/-! ## Interleavings -/

/-- The records of session `i` in a stream. -/
def proj (i : ι) (stream : List (ι × ρ)) : List ρ :=
  (stream.filter fun e => decide (e.1 = i)).map Prod.snd

@[simp] theorem proj_nil (i : ι) : proj i ([] : List (ι × ρ)) = [] := rfl

@[simp] theorem proj_cons_self (i : ι) (record : ρ) (stream : List (ι × ρ)) :
    proj i ((i, record) :: stream) = record :: proj i stream := by
  simp [proj]

theorem proj_cons_of_ne {i j : ι} (h : i ≠ j) (record : ρ) (stream : List (ι × ρ)) :
    proj j ((i, record) :: stream) = proj j stream := by
  simp [proj, h]

@[simp] theorem proj_append (i : ι) (s t : List (ι × ρ)) :
    proj i (s ++ t) = proj i s ++ proj i t := by
  simp [proj]

/-- Session `i` has begun and not ended. -/
def Open (before after : List (ι × ρ)) (i : ι) : Prop :=
  proj i before ≠ [] ∧ proj i after ≠ []

/-- When a record comes, no other session with its key is open. -/
def Exclusive (key : ι → κ) (stream : List (ι × ρ)) : Prop :=
  ∀ before e after, stream = before ++ e :: after →
    ∀ i, i ≠ e.1 → key i = key e.1 → ¬ Open before (e :: after) i

theorem exclusive_of_injective {key : ι → κ} (h : Function.Injective key)
    (stream : List (ι × ρ)) : Exclusive key stream :=
  fun _ _ _ _ _ hne hkey => absurd (h hkey) hne

/-- The table while a stream runs: it holds the states of the open
sessions and nothing else, and each session can still run to its end. -/
structure Running (step : Machine σ ρ ω ε) (key : ι → κ) (emit : ι → ρ → ω)
    (before after : List (ι × ρ)) (states : ι → Option σ) (table : κ → Option σ) : Prop where
  closed : ∀ i, ¬ Open before after i → states i = none
  opened : ∀ i, Open before after i → table (key i) = states i
  free : ∀ k, (∀ i, Open before after i → key i ≠ k) → table k = none
  rest : ∀ i, runAlone step (states i) (proj i after)
    = .ok (none, (proj i after).map (emit i))

variable {key : ι → κ} {emit : ι → ρ → ω}

theorem open_step_of_ne {before after : List (ι × ρ)} {i j : ι} {record : ρ} (h : i ≠ j) :
    Open (before ++ [(i, record)]) after j ↔ Open before ((i, record) :: after) j := by
  rw [Open, Open, proj_append, proj_cons_of_ne h, proj_cons_of_ne h, proj_nil, List.append_nil]

/-- At a record of session `i` the table has the state of session `i`. -/
theorem Running.table_eq {before after : List (ι × ρ)} {i : ι} {record : ρ}
    {states : ι → Option σ} {table : κ → Option σ}
    (h : Running step key emit before ((i, record) :: after) states table)
    (hexcl : ∀ j, j ≠ i → key j = key i → ¬ Open before ((i, record) :: after) j) :
    table (key i) = states i := by
  by_cases hopen : Open before ((i, record) :: after) i
  · exact h.opened i hopen
  · rw [h.closed i hopen]
    refine h.free _ fun j hj hkey => ?_
    by_cases hji : j = i
    · exact hopen (hji ▸ hj)
    · exact hexcl j hji hkey hj

/-- One record: the table goes on to hold the states of the open sessions. -/
theorem Running.record_step [DecidableEq κ] {before after : List (ι × ρ)} {i : ι} {record : ρ}
    {states : ι → Option σ} {table : κ → Option σ}
    (h : Running step key emit before ((i, record) :: after) states table)
    (hexcl : ∀ j, j ≠ i → key j = key i → ¬ Open before ((i, record) :: after) j) :
    ∃ state, step (table (key i)) record = .ok (state, emit i record)
      ∧ Running step key emit (before ++ [(i, record)]) after
        (Function.update states i state) (Function.update table (key i) state) := by
  have hrest := h.rest i
  rw [proj_cons_self, List.map_cons] at hrest
  obtain ⟨state, out, outs, hstep, htail, houts⟩ := runAlone_cons hrest
  obtain ⟨rfl, rfl⟩ := List.cons.inj houts
  have hbegun : proj i (before ++ [(i, record)]) ≠ [] := by simp
  refine ⟨state, by rw [h.table_eq hexcl, hstep], ?_, ?_, ?_, ?_⟩
  · intro j hj
    rcases eq_or_ne j i with rfl | hji
    · have hend : proj j after = [] := by
        by_contra hne
        exact hj ⟨hbegun, hne⟩
      rw [hend] at htail
      rw [Function.update_self]
      cases htail
      rfl
    · rw [Function.update_of_ne hji]
      exact h.closed j fun hopen => hj ((open_step_of_ne (Ne.symm hji)).mpr hopen)
  · intro j hj
    rcases eq_or_ne j i with rfl | hji
    · rw [Function.update_self, Function.update_self]
    · have hopen := (open_step_of_ne (Ne.symm hji)).mp hj
      have hkey : key j ≠ key i := fun hkey => hexcl j hji hkey hopen
      rw [Function.update_of_ne hkey, Function.update_of_ne hji]
      exact h.opened j hopen
  · intro k hk
    rcases eq_or_ne k (key i) with rfl | hki
    · have hend : proj i after = [] := by
        by_contra hne
        exact hk i ⟨hbegun, hne⟩ rfl
      rw [hend] at htail
      rw [Function.update_self]
      cases htail
      rfl
    · rw [Function.update_of_ne hki]
      refine h.free k fun j hj hkey => ?_
      have hji : j ≠ i := fun hji => hki (by rw [← hkey, hji])
      exact hk j ((open_step_of_ne (Ne.symm hji)).mpr hj) hkey
  · intro j
    rcases eq_or_ne j i with rfl | hji
    · rw [Function.update_self]
      exact htail
    · rw [Function.update_of_ne hji]
      have hj := h.rest j
      rwa [proj_cons_of_ne (Ne.symm hji)] at hj

theorem Running.run [DecidableEq κ] : ∀ {after before : List (ι × ρ)} {states : ι → Option σ}
    {table : κ → Option σ}, Running step key emit before after states table →
    Exclusive key (before ++ after) →
    Multiplex.run step table (after.map fun e => (key e.1, e.2))
      = .ok (fun _ => none, after.map fun e => emit e.1 e.2)
  | [], before, states, table, h, _ => by
      have htable : table = fun _ => none :=
        funext fun k => h.free k fun i hi => absurd rfl hi.2
      rw [htable]
      rfl
  | (i, record) :: after, before, states, table, h, hexcl => by
      obtain ⟨state, hstep, hnext⟩ := h.record_step (hexcl before _ after rfl)
      have hrest := hnext.run (by rwa [List.append_assoc])
      exact run_cons hstep hrest

/-- Sessions that never share a key do not influence each other. -/
theorem run_interleaved [DecidableEq κ] {stream : List (ι × ρ)} (hexcl : Exclusive key stream)
    (halone : ∀ i, runAlone step none (proj i stream)
      = .ok (none, (proj i stream).map (emit i))) :
    run step (fun _ => none) (stream.map fun e => (key e.1, e.2))
      = .ok (fun _ => none, stream.map fun e => emit e.1 e.2) := by
  have hinit : Running step key emit [] stream (fun _ => none) (fun _ => none) :=
    ⟨fun _ _ => rfl, fun _ _ => rfl, fun _ _ => rfl, halone⟩
  exact hinit.run hexcl

end Multiplex

import Mathlib.Data.List.Basic

/-!
# Scripts that run beside other processes

A script makes one action after the other. The state has the variables of
the script and what it can see of the system; between two actions the
other processes may change it, as far as a relation `rely` lets them
(`Exec`).

`Triple rely p c q` says that the script, begun in a state with `p`, ends
in states with `q` only, whatever the others do. There is one rule for
each construct; an assertion must be `Stable`, that is, the others must
not be able to break it. `Triple.each` is the rule for a loop that does
something for each member of a list, and `Triple.keeps` the one for what
no action of a script breaks, wherever it stands.
-/

inductive Script (σ : Type) where
  | skip
  | act (f : σ → σ)
  | seq (c d : Script σ)
  | ite (test : σ → Bool) (c d : Script σ)
  /-- Wait until the test succeeds. -/
  | await (test : σ → Bool)

namespace Script

variable {σ α : Type}

/-- One script after the other. -/
def all : List (Script σ) → Script σ
  | [] => skip
  | c :: cs => seq c (all cs)

/-- A loop over a list. -/
def forEach : List α → (α → Script σ) → Script σ
  | [], _ => skip
  | x :: xs, body => seq (body x) (forEach xs body)

/-- At most `n` turns, and none after one that makes the test succeed. -/
def upTo : Nat → Script σ → (σ → Bool) → Script σ
  | 0, _, _ => skip
  | n + 1, body, test => seq body (ite test skip (upTo n body test))

/-- An execution among other processes. -/
inductive Exec (rely : σ → σ → Prop) : Script σ → σ → σ → Prop
  | skip {s : σ} : Exec rely .skip s s
  | act {f : σ → σ} {s : σ} : Exec rely (.act f) s (f s)
  | seq {c d : Script σ} {s t u : σ} :
      Exec rely c s t → Exec rely d t u → Exec rely (.seq c d) s u
  | iteTrue {test : σ → Bool} {c d : Script σ} {s t : σ} :
      test s = true → Exec rely c s t → Exec rely (.ite test c d) s t
  | iteFalse {test : σ → Bool} {c d : Script σ} {s t : σ} :
      test s = false → Exec rely d s t → Exec rely (.ite test c d) s t
  | await {test : σ → Bool} {s : σ} : test s = true → Exec rely (.await test) s s
  | before {c : Script σ} {s s' t : σ} : rely s s' → Exec rely c s' t → Exec rely c s t
  | after {c : Script σ} {s t t' : σ} : Exec rely c s t → rely t t' → Exec rely c s t'

/-! ## Undisturbed executions -/

/-- What the script does while nothing else happens; `none` if it waits
for good. -/
def run : Script σ → σ → Option σ
  | skip, s => some s
  | act f, s => some (f s)
  | seq c d, s => (c.run s).bind d.run
  | ite test c d, s => if test s then c.run s else d.run s
  | await test, s => if test s then some s else none

theorem exec_of_run {rely : σ → σ → Prop} : ∀ {c : Script σ} {s t : σ},
    c.run s = some t → Exec rely c s t
  | skip, s, t, h => by
      rw [← Option.some.inj h]
      exact .skip
  | act f, s, t, h => by
      rw [← Option.some.inj h]
      exact .act
  | seq c d, s, t, h => by
      obtain ⟨u, hc, hd⟩ := Option.bind_eq_some_iff.mp h
      exact .seq (exec_of_run hc) (exec_of_run hd)
  | ite test c d, s, t, h => by
      rw [run] at h
      cases htest : test s with
      | true =>
          rw [htest] at h
          exact .iteTrue htest (exec_of_run h)
      | false =>
          rw [htest] at h
          exact .iteFalse htest (exec_of_run h)
  | await test, s, t, h => by
      rw [run] at h
      split at h
      · next htest =>
          rw [← Option.some.inj h]
          exact .await htest
      · cases h

/-! ## Assertions -/

/-- The others do not break the assertion. -/
def Stable (rely : σ → σ → Prop) (p : σ → Prop) : Prop := ∀ s s', rely s s' → p s → p s'

def Triple (rely : σ → σ → Prop) (p : σ → Prop) (c : Script σ) (q : σ → Prop) : Prop :=
  ∀ s t, p s → Exec rely c s t → q t

variable {rely : σ → σ → Prop} {p p' q q' r : σ → Prop} {c d : Script σ}

theorem Stable.true : Stable rely fun _ => True := fun _ _ _ _ => trivial

theorem Stable.and (hp : Stable rely p) (hq : Stable rely q) :
    Stable rely fun s => p s ∧ q s :=
  fun s s' h hs => ⟨hp s s' h hs.1, hq s s' h hs.2⟩

theorem Stable.forall {P : α → σ → Prop} (h : ∀ x, Stable rely (P x)) :
    Stable rely fun s => ∀ x, P x s :=
  fun s s' hrely hs x => h x s s' hrely (hs x)

theorem Stable.imp {b : Prop} (h : b → Stable rely p) : Stable rely fun s => b → p s :=
  fun s s' hrely hs hb => h hb s s' hrely (hs hb)

theorem Stable.or (hp : Stable rely p) (hq : Stable rely q) : Stable rely fun s => p s ∨ q s :=
  fun s s' h hs => hs.imp (hp s s' h) (hq s s' h)

theorem Triple.weaken (h : Triple rely p c q) (hp : ∀ s, p' s → p s) (hq : ∀ s, q s → q' s) :
    Triple rely p' c q' :=
  fun s t hs hexec => hq t (h s t (hp s hs) hexec)

theorem Triple.and (h : Triple rely p c q) (h' : Triple rely p' c q') :
    Triple rely (fun s => p s ∧ p' s) c fun s => q s ∧ q' s :=
  fun s t hs hexec => ⟨h s t hs.1 hexec, h' s t hs.2 hexec⟩

/-- What a test has found, and is true for good. -/
theorem Triple.of_fact {b : Prop} (h : b → Triple rely p c q) :
    Triple rely (fun s => p s ∧ b) c q :=
  fun s t hs hexec => h hs.2 s t hs.1 hexec

theorem Triple.skip (hp : Stable rely p) : Triple rely p .skip p := by
  intro s t hs hexec
  generalize hc : Script.skip = c at hexec
  induction hexec with
  | skip => exact hs
  | before hrely _ ih => exact ih (hp _ _ hrely hs) hc
  | after _ hrely ih => exact hp _ _ hrely (ih hs hc)
  | _ => cases hc

theorem Triple.act {f : σ → σ} (hp : Stable rely p) (hq : Stable rely q)
    (h : ∀ s, p s → q (f s)) : Triple rely p (.act f) q := by
  intro s t hs hexec
  generalize hc : Script.act f = c at hexec
  induction hexec with
  | act =>
      cases hc
      exact h _ hs
  | before hrely _ ih => exact ih (hp _ _ hrely hs) hc
  | after _ hrely ih => exact hq _ _ hrely (ih hs hc)
  | _ => cases hc

theorem Triple.seq (hp : Stable rely p) (hr : Stable rely r) (hc : Triple rely p c q)
    (hd : Triple rely q d r) : Triple rely p (.seq c d) r := by
  intro s t hs hexec
  generalize heq : Script.seq c d = e at hexec
  induction hexec with
  | seq hexec hexec' =>
      cases heq
      exact hd _ _ (hc _ _ hs hexec) hexec'
  | before hrely _ ih => exact ih (hp _ _ hrely hs) heq
  | after _ hrely ih => exact hr _ _ hrely (ih hs heq)
  | _ => cases heq

/-- What the test finds may be gone when the branch begins; `q` and `q'`
are what remains of it. -/
theorem Triple.ite {test : σ → Bool} (hp : Stable rely p) (hr : Stable rely r)
    (hyes : ∀ s, p s → test s = true → q s) (hno : ∀ s, p s → test s = false → q' s)
    (hc : Triple rely q c r) (hd : Triple rely q' d r) : Triple rely p (.ite test c d) r := by
  intro s t hs hexec
  generalize heq : Script.ite test c d = e at hexec
  induction hexec with
  | iteTrue htest hexec =>
      cases heq
      exact hc _ _ (hyes _ hs htest) hexec
  | iteFalse htest hexec =>
      cases heq
      exact hd _ _ (hno _ hs htest) hexec
  | before hrely _ ih => exact ih (hp _ _ hrely hs) heq
  | after _ hrely ih => exact hr _ _ hrely (ih hs heq)
  | _ => cases heq

theorem Triple.await {test : σ → Bool} (hp : Stable rely p) (hq : Stable rely q)
    (h : ∀ s, p s → test s = true → q s) : Triple rely p (.await test) q := by
  intro s t hs hexec
  generalize hc : Script.await test = c at hexec
  induction hexec with
  | await htest =>
      cases hc
      exact h _ hs htest
  | before hrely _ ih => exact ih (hp _ _ hrely hs) hc
  | after _ hrely ih => exact hq _ _ hrely (ih hs hc)
  | _ => cases hc

/-! ## What no action breaks -/

/-- `f` is one of the actions of the script. -/
def IsAction (f : σ → σ) : Script σ → Prop
  | skip | await _ => False
  | act g => f = g
  | seq c d => c.IsAction f ∨ d.IsAction f
  | ite _ c d => c.IsAction f ∨ d.IsAction f

@[simp] theorem isAction_all {f : σ → σ} : ∀ {cs : List (Script σ)},
    (all cs).IsAction f ↔ ∃ c ∈ cs, c.IsAction f
  | [] => by simp [all, IsAction]
  | c :: cs => by simp [all, IsAction, isAction_all]

@[simp] theorem isAction_forEach {f : σ → σ} {body : α → Script σ} : ∀ {xs : List α},
    (forEach xs body).IsAction f ↔ ∃ x ∈ xs, (body x).IsAction f
  | [] => by simp [forEach, IsAction]
  | x :: xs => by simp [forEach, IsAction, isAction_forEach]

theorem isAction_upTo {f : σ → σ} {body : Script σ} {test : σ → Bool} : ∀ {n : Nat},
    (upTo n body test).IsAction f → body.IsAction f
  | 0, h => absurd h id
  | n + 1, h => by
      rcases h with h | h | h
      · exact h
      · cases h
      · exact isAction_upTo h

theorem Triple.keeps (hp : Stable rely p)
    (h : ∀ f, c.IsAction f → ∀ s, p s → p (f s)) : Triple rely p c p := by
  induction c with
  | skip => exact .skip hp
  | act f => exact .act hp hp (h f rfl)
  | seq c d ihc ihd =>
      exact .seq hp hp (ihc fun f hf => h f (Or.inl hf)) (ihd fun f hf => h f (Or.inr hf))
  | ite test c d ihc ihd =>
      exact .ite hp hp (fun _ hs _ => hs) (fun _ hs _ => hs)
        (ihc fun f hf => h f (Or.inl hf)) (ihd fun f hf => h f (Or.inr hf))
  | await test => exact .await hp hp fun _ hs _ => hs

/-! ## Loops -/

/-- The assertion after each turn speaks of the members so far. -/
theorem Triple.forEach {body : α → Script σ} {I : List α → σ → Prop}
    (hI : ∀ done, Stable rely (I done)) : ∀ {xs done : List α},
    (∀ before x after, xs = before ++ x :: after →
      Triple rely (I (done ++ before)) (body x) (I (done ++ before ++ [x]))) →
    Triple rely (I done) (forEach xs body) (I (done ++ xs))
  | [], done, _ => by
      rw [List.append_nil]
      exact .skip (hI done)
  | x :: xs, done, h => by
      have hfirst := h [] x xs rfl
      rw [List.append_nil] at hfirst
      rw [List.append_cons]
      refine .seq (hI _) (hI _) hfirst (Triple.forEach hI fun before y after hxs => ?_)
      have hrest := h (x :: before) y after (by rw [hxs, List.cons_append])
      rwa [List.append_cons done x before] at hrest

/-- A loop that brings about `q x` for each member `x`, where no turn
undoes what another one did. -/
theorem Triple.each {xs : List α} {body : α → Script σ} {q : α → σ → Prop}
    (hp : Stable rely p) (hq : ∀ x ∈ xs, Stable rely (q x))
    (hbody : ∀ x ∈ xs, Triple rely p (body x) fun s => p s ∧ q x s)
    (hkeep : ∀ x ∈ xs, ∀ y ∈ xs, Triple rely (fun s => p s ∧ q x s) (body y) (q x)) :
    Triple rely p (Script.forEach xs body) fun s => p s ∧ ∀ x ∈ xs, q x s := by
  have hloop := @Triple.forEach σ α rely body
    (fun done s => (∀ x ∈ done, x ∈ xs) → p s ∧ ∀ x ∈ done, q x s)
    (fun done s s' hrely hs hsub => ⟨hp s s' hrely (hs hsub).1, fun x hx =>
      hq x (hsub x hx) s s' hrely ((hs hsub).2 x hx)⟩) xs [] ?_
  · refine hloop.weaken (fun s hs _ => ⟨hs, List.forall_mem_nil _⟩) fun s hs => ?_
    exact hs fun x hx => hx
  · intro before x after hxs s t hs hexec hsub
    rw [List.nil_append] at hs hsub
    have hmem : x ∈ xs := hsub x (List.mem_append_right _ (List.mem_singleton_self x))
    have hbefore : ∀ y ∈ before, y ∈ xs := fun y hy => hsub y (List.mem_append_left _ hy)
    obtain ⟨hps, hqs⟩ := hs hbefore
    obtain ⟨hpt, hqt⟩ := hbody x hmem s t hps hexec
    refine ⟨hpt, fun y hy => ?_⟩
    rcases List.mem_append.mp hy with hy | hy
    · exact hkeep y (hbefore y hy) x hmem s t ⟨hps, hqs y hy⟩ hexec
    · rw [List.mem_singleton.mp hy]
      exact hqt

/-- A loop of which the turn for `x` brings about `q`, and no turn undoes
it. -/
theorem Triple.once {xs : List α} {body : α → Script σ} {x : α} (hp : Stable rely p)
    (hq : Stable rely q) (hx : x ∈ xs) (hbody : Triple rely p (body x) fun s => p s ∧ q s)
    (hkeepp : ∀ y ∈ xs, Triple rely p (body y) p)
    (hkeepq : ∀ y ∈ xs, Triple rely (fun s => p s ∧ q s) (body y) q) :
    Triple rely p (Script.forEach xs body) fun s => p s ∧ q s := by
  have hloop := @Triple.each σ α rely p xs body (fun y s => y = x → q s) hp
    (fun _ _ => .imp fun _ => hq) ?_ ?_
  · exact hloop.weaken (fun _ hs => hs) fun _ hs => ⟨hs.1, hs.2 x hx rfl⟩
  · intro y hy s t hs hexec
    by_cases heq : y = x
    · subst heq
      obtain ⟨hpt, hqt⟩ := hbody s t hs hexec
      exact ⟨hpt, fun _ => hqt⟩
    · exact ⟨hkeepp y hy s t hs hexec, fun heq' => absurd heq' heq⟩
  · intro y hy z hz s t hs hexec heq
    exact hkeepq z hz s t ⟨hs.1, hs.2 heq⟩ hexec

/-- What each turn keeps. -/
theorem Triple.forEach_keeps {xs : List α} {body : α → Script σ} (hp : Stable rely p)
    (hbody : ∀ x ∈ xs, Triple rely p (body x) p) : Triple rely p (Script.forEach xs body) p := by
  refine @Triple.forEach σ α rely body (fun _ => p) (fun _ => hp) xs [] fun before x after hxs => ?_
  exact hbody x (hxs ▸ List.mem_append_right _ List.mem_cons_self)

/-- A turn begins with `p`, and again with `p` if the test fails after it. -/
theorem Triple.upTo {body : Script σ} {test : σ → Bool} (hp : Stable rely p) (hq : Stable rely q)
    (hbody : Triple rely p body q) (hnext : ∀ s, q s → test s = false → p s)
    (hend : ∀ s, p s → q s) : ∀ n, Triple rely p (Script.upTo n body test) q
  | 0 => (Triple.skip hp).weaken (fun _ hs => hs) hend
  | n + 1 => .seq hp hq hbody (.ite hq hq (fun _ hs _ => hs) hnext (.skip hq)
      (Triple.upTo hp hq hbody hnext hend n))

end Script

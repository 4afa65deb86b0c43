import Mathlib.Logic.Function.Basic

/-!
# Locks on open files

`flock` locks an open file description. Processes refer to it by
descriptors, which a child inherits; the lock lasts until it is unlocked
or no process has a descriptor left. Two descriptions of one file cannot
be locked at the same time (`Exclusive`), so whoever keeps a lock knows
that no one else does (`Exclusive.owner_unique`).

A description is named by a number and remembers the process that opened
it; the number of a description without descriptors may be used again.
-/

namespace FileLocks

/-- The open files of processes in `π`; files are in `φ`. -/
structure Kernel (π φ : Type) where
  /-- The file of a description. -/
  file : Nat → φ
  /-- The process that opened a description. -/
  opener : Nat → π
  /-- Whether a description has been locked. -/
  locked : Nat → Bool
  /-- The descriptions that a process has descriptors of. -/
  descriptors : π → List Nat

namespace Kernel

variable {π φ : Type}

/-! ## System calls -/

/-- No process has a descriptor of `o`. -/
def Unused (k : Kernel π φ) (o : Nat) : Prop := ∀ p, o ∉ k.descriptors p

/-- The lock on a description counts while a process has a descriptor. -/
def HasLock (k : Kernel π φ) (o : Nat) : Prop :=
  k.locked o = true ∧ ∃ p, o ∈ k.descriptors p

/-- `flock -n` on `o` succeeds. -/
def Free (k : Kernel π φ) (o : Nat) : Prop :=
  ∀ o', o' ≠ o → k.file o' = k.file o → ¬ k.HasLock o'

/-- `p` opens `f` and gets the description `o`. -/
def openFile [DecidableEq π] (k : Kernel π φ) (p : π) (o : Nat) (f : φ) : Kernel π φ where
  file := Function.update k.file o f
  opener := Function.update k.opener o p
  locked := Function.update k.locked o false
  descriptors := Function.update k.descriptors p (o :: k.descriptors p)

def lock (k : Kernel π φ) (o : Nat) : Kernel π φ :=
  { k with locked := Function.update k.locked o true }

/-- `flock -u` -/
def unlock (k : Kernel π φ) (o : Nat) : Kernel π φ :=
  { k with locked := Function.update k.locked o false }

def close [DecidableEq π] (k : Kernel π φ) (p : π) (o : Nat) : Kernel π φ :=
  { k with
    descriptors := Function.update k.descriptors p ((k.descriptors p).filter (· ≠ o)) }

/-- `p` closes all descriptors, or begins without any. -/
def closeAll [DecidableEq π] (k : Kernel π φ) (p : π) : Kernel π φ :=
  { k with descriptors := Function.update k.descriptors p [] }

/-- `q` begins as a child of `p`. -/
def fork [DecidableEq π] (k : Kernel π φ) (p q : π) : Kernel π φ :=
  { k with descriptors := Function.update k.descriptors q (k.descriptors p) }

/-! ## What is kept -/

variable {k k' : Kernel π φ} {p q owner a : π} {o o' : Nat} {f : φ}

/-- `p` has a descriptor of the description `o` of `f` that `owner`
opened. -/
structure Has (k : Kernel π φ) (p owner : π) (o : Nat) (f : φ) : Prop where
  mem : o ∈ k.descriptors p
  opener : k.opener o = owner
  file : k.file o = f

theorem Has.ne_unused (h : k.Has p owner o f) (hunused : k.Unused o') : o ≠ o' := by
  rintro rfl
  exact hunused p h.mem

/-- At most one description of a file is locked. -/
def Exclusive (k : Kernel π φ) : Prop :=
  ∀ o o', k.HasLock o → k.HasLock o' → k.file o = k.file o' → o = o'

/-- `p` has a descriptor of a locked description of `f` that `owner`
opened. -/
def Keeps (k : Kernel π φ) (p owner : π) (f : φ) : Prop :=
  ∃ o, k.Has p owner o f ∧ k.locked o = true

/-- Two processes that keep locks on one file have them from one process. -/
theorem Exclusive.owner_unique (hk : k.Exclusive) {owner' : π} (h : k.Keeps p owner f)
    (h' : k.Keeps q owner' f) : owner = owner' := by
  obtain ⟨o, hhas, hlocked⟩ := h
  obtain ⟨o', hhas', hlocked'⟩ := h'
  have heq := hk o o' ⟨hlocked, p, hhas.mem⟩ ⟨hlocked', q, hhas'.mem⟩
    (hhas.file.trans hhas'.file.symm)
  rw [← hhas.opener, heq, hhas'.opener]

/-- A step after which fewer descriptions are locked. -/
theorem Exclusive.mono (hk : k.Exclusive) {k' : Kernel π φ} (hfile : k'.file = k.file)
    (hlock : ∀ a, k'.HasLock a → k.HasLock a) : k'.Exclusive := by
  intro a b ha hb heq
  rw [hfile] at heq
  exact hk a b (hlock a ha) (hlock b hb) heq

/-- A step of the process `a` takes no descriptor from another process
and unlocks only what `a` has opened. -/
structure Leaves (k k' : Kernel π φ) (a : π) : Prop where
  has : ∀ {p owner o f}, p ≠ a → k.Has p owner o f → k'.Has p owner o f
  locked : ∀ {p owner o f}, owner ≠ a → k.Has p owner o f → k.locked o = true →
    k'.locked o = true

theorem Leaves.refl (k : Kernel π φ) (a : π) : k.Leaves k a :=
  ⟨fun _ h => h, fun _ _ h => h⟩

theorem Leaves.keeps (hleaves : k.Leaves k' a) (hp : p ≠ a) (howner : owner ≠ a)
    (h : k.Keeps p owner f) : k'.Keeps p owner f := by
  obtain ⟨o, hhas, hlocked⟩ := h
  exact ⟨o, hleaves.has hp hhas, hleaves.locked howner hhas hlocked⟩

/-- A step of `a` that unlocks nothing also leaves its own locks to the
processes that have inherited them. -/
theorem Leaves.keeps_of_locked (hleaves : k.Leaves k' a)
    (hlocked : ∀ {p owner o f}, k.Has p owner o f → k.locked o = true → k'.locked o = true)
    (hp : p ≠ a) (h : k.Keeps p owner f) : k'.Keeps p owner f := by
  obtain ⟨o, hhas, ho⟩ := h
  exact ⟨o, hleaves.has hp hhas, hlocked hhas ho⟩

/-! ## Locks -/

theorem Has.lock (h : k.Has p owner o f) (o' : Nat) : (k.lock o').Has p owner o f :=
  ⟨h.mem, h.opener, h.file⟩

theorem Has.unlock (h : k.Has p owner o f) (o' : Nat) : (k.unlock o').Has p owner o f :=
  ⟨h.mem, h.opener, h.file⟩

theorem Exclusive.lock (hk : k.Exclusive) (hfree : k.Free o) : (k.lock o).Exclusive := by
  have hold : ∀ {a}, (k.lock o).HasLock a → a ≠ o → k.HasLock a := by
    rintro a ⟨hlocked, hmem⟩ hne
    exact ⟨(Function.update_of_ne hne _ _).symm.trans hlocked, hmem⟩
  intro a b ha hb hfile
  by_cases hao : a = o <;> by_cases hbo : b = o
  · rw [hao, hbo]
  · exact absurd (hold hb hbo) (hfree b hbo (hao ▸ hfile.symm))
  · exact absurd (hold ha hao) (hfree a hao (hbo ▸ hfile))
  · exact hk a b (hold ha hao) (hold hb hbo) hfile

theorem Exclusive.unlock (hk : k.Exclusive) (o : Nat) : (k.unlock o).Exclusive := by
  refine hk.mono rfl ?_
  rintro a ⟨hlocked, hmem⟩
  change Function.update k.locked o false a = true at hlocked
  have hne : a ≠ o := by
    rintro rfl
    rw [Function.update_self] at hlocked
    cases hlocked
  exact ⟨(Function.update_of_ne hne _ _).symm.trans hlocked, hmem⟩

theorem locked_lock (o' : Nat) (hlocked : k.locked o = true) : (k.lock o').locked o = true := by
  change Function.update k.locked o' true o = true
  by_cases h : o = o'
  · rw [h, Function.update_self]
  · rw [Function.update_of_ne h]
    exact hlocked

theorem locked_unlock {o' : Nat} (hne : o ≠ o') (hlocked : k.locked o = true) :
    (k.unlock o').locked o = true :=
  (Function.update_of_ne hne _ _).trans hlocked

theorem Leaves.lock (k : Kernel π φ) (a : π) (o : Nat) : k.Leaves (k.lock o) a :=
  ⟨fun _ h => h.lock o, fun _ _ hlocked => locked_lock o hlocked⟩

theorem Leaves.unlock (hopener : k.opener o = a) : k.Leaves (k.unlock o) a := by
  refine ⟨fun _ h => h.unlock o, ?_⟩
  intro p owner o' f howner h hlocked
  have hne : o' ≠ o := by
    rintro rfl
    exact howner (h.opener.symm.trans hopener)
  exact locked_unlock hne hlocked

/-! ## Descriptors -/

section Descriptors

variable [DecidableEq π]

theorem mem_openFile {r : π} {b : Nat} : b ∈ (k.openFile p o f).descriptors r
    ↔ r = p ∧ b = o ∨ b ∈ k.descriptors r := by
  change b ∈ Function.update k.descriptors p (o :: k.descriptors p) r ↔ _
  rcases eq_or_ne r p with rfl | hr
  · rw [Function.update_self, List.mem_cons, and_iff_right rfl]
  · rw [Function.update_of_ne hr, or_iff_right fun h => hr h.1]

theorem mem_close {r : π} {b : Nat} : b ∈ (k.close p o).descriptors r
    ↔ b ∈ k.descriptors r ∧ (r ≠ p ∨ b ≠ o) := by
  change b ∈ Function.update k.descriptors p ((k.descriptors p).filter (· ≠ o)) r ↔ _
  rcases eq_or_ne r p with rfl | hr
  · rw [Function.update_self, List.mem_filter, decide_eq_true_iff, or_iff_right fun h => h rfl]
  · rw [Function.update_of_ne hr, and_iff_left (.inl hr)]

theorem mem_closeAll {r : π} {b : Nat} : b ∈ (k.closeAll p).descriptors r
    ↔ r ≠ p ∧ b ∈ k.descriptors r := by
  change b ∈ Function.update k.descriptors p [] r ↔ _
  rcases eq_or_ne r p with rfl | hr
  · rw [Function.update_self]
    exact iff_of_false List.not_mem_nil fun h => h.1 rfl
  · rw [Function.update_of_ne hr, and_iff_right hr]

theorem mem_fork {r : π} {b : Nat} : b ∈ (k.fork p q).descriptors r
    ↔ b ∈ k.descriptors (if r = q then p else r) := by
  change b ∈ Function.update k.descriptors q (k.descriptors p) r ↔ _
  rcases eq_or_ne r q with rfl | hr
  · rw [Function.update_self, if_pos rfl]
  · rw [Function.update_of_ne hr, if_neg hr]

theorem has_openFile (k : Kernel π φ) (p : π) (o : Nat) (f : φ) :
    (k.openFile p o f).Has p p o f :=
  ⟨mem_openFile.mpr (.inl ⟨rfl, rfl⟩), Function.update_self _ _ _, Function.update_self _ _ _⟩

theorem Has.openFile (h : k.Has p owner o f) (hunused : k.Unused o') (q : π) (f' : φ) :
    (k.openFile q o' f').Has p owner o f := by
  have hne := h.ne_unused hunused
  refine ⟨mem_openFile.mpr (.inr h.mem), ?_, ?_⟩
  · exact (Function.update_of_ne hne _ _).trans h.opener
  · exact (Function.update_of_ne hne _ _).trans h.file

theorem Has.closeAll (h : k.Has p owner o f) (hp : p ≠ q) : (k.closeAll q).Has p owner o f :=
  ⟨mem_closeAll.mpr ⟨hp, h.mem⟩, h.opener, h.file⟩

theorem Has.close (h : k.Has p owner o f) (hne : p ≠ q ∨ o ≠ o') :
    (k.close q o').Has p owner o f :=
  ⟨mem_close.mpr ⟨h.mem, hne⟩, h.opener, h.file⟩

theorem Has.fork (h : k.Has p owner o f) (hp : p ≠ q) (p' : π) :
    (k.fork p' q).Has p owner o f :=
  ⟨mem_fork.mpr (by rw [if_neg hp]; exact h.mem), h.opener, h.file⟩

/-- A child has the descriptors of its parent. -/
theorem Has.inherit (h : k.Has p owner o f) : (k.fork p q).Has q owner o f :=
  ⟨mem_fork.mpr (by rw [if_pos rfl]; exact h.mem), h.opener, h.file⟩

theorem Exclusive.openFile (hk : k.Exclusive) (hunused : k.Unused o) (p : π) (f : φ) :
    (k.openFile p o f).Exclusive := by
  have hold {b : Nat} (h : (k.openFile p o f).HasLock b) : b ≠ o ∧ k.HasLock b := by
    obtain ⟨hlocked, q, hmem⟩ := h
    change Function.update k.locked o false b = true at hlocked
    have hne : b ≠ o := by
      rintro rfl
      rw [Function.update_self] at hlocked
      cases hlocked
    rw [Function.update_of_ne hne] at hlocked
    exact ⟨hne, hlocked, q, (mem_openFile.mp hmem).resolve_left fun h => hne h.2⟩
  intro b c hb hc hfile
  obtain ⟨hneB, hb⟩ := hold hb
  obtain ⟨hneC, hc⟩ := hold hc
  refine hk b c hb hc ?_
  change Function.update k.file o f b = Function.update k.file o f c at hfile
  rwa [Function.update_of_ne hneB, Function.update_of_ne hneC] at hfile

theorem Exclusive.close (hk : k.Exclusive) (p : π) (o : Nat) : (k.close p o).Exclusive := by
  refine hk.mono rfl ?_
  rintro b ⟨hlocked, q, hmem⟩
  exact ⟨hlocked, q, (mem_close.mp hmem).1⟩

theorem Exclusive.closeAll (hk : k.Exclusive) (p : π) : (k.closeAll p).Exclusive := by
  refine hk.mono rfl ?_
  rintro b ⟨hlocked, q, hmem⟩
  exact ⟨hlocked, q, (mem_closeAll.mp hmem).2⟩

theorem Exclusive.fork (hk : k.Exclusive) (p q : π) : (k.fork p q).Exclusive := by
  refine hk.mono rfl ?_
  rintro b ⟨hlocked, r, hmem⟩
  exact ⟨hlocked, _, mem_fork.mp hmem⟩

theorem locked_openFile (hunused : k.Unused o') {f' : φ} (h : k.Has p owner o f)
    (hlocked : k.locked o = true) : (k.openFile a o' f').locked o = true :=
  (Function.update_of_ne (h.ne_unused hunused) _ _).trans hlocked

theorem Leaves.openFile (hunused : k.Unused o) (f : φ) : k.Leaves (k.openFile a o f) a :=
  ⟨fun _ h => h.openFile hunused a f, fun _ h hlocked => locked_openFile hunused h hlocked⟩

theorem Leaves.close (k : Kernel π φ) (a : π) (o : Nat) : k.Leaves (k.close a o) a :=
  ⟨fun hp h => h.close (.inl hp), fun _ _ h => h⟩

theorem Leaves.closeAll (k : Kernel π φ) (a : π) : k.Leaves (k.closeAll a) a :=
  ⟨fun hp h => h.closeAll hp, fun _ _ h => h⟩

theorem Leaves.fork (k : Kernel π φ) (p a : π) : k.Leaves (k.fork p a) a :=
  ⟨fun hp h => h.fork hp p, fun _ _ h => h⟩

theorem Keeps.inherit (h : k.Keeps p owner f) : (k.fork p q).Keeps q owner f := by
  obtain ⟨o, hhas, hlocked⟩ := h
  exact ⟨o, hhas.inherit, hlocked⟩

end Descriptors

end Kernel

end FileLocks

import Mathlib.Algebra.BigOperators.Group.List.Basic
import Mathlib.Algebra.GroupWithZero.Nat
import Mathlib.Data.List.Dedup
import Mathlib.Data.List.Induction
import Mathlib.Data.List.Nodup
import Mathlib.Data.Fintype.EquivFin

/-!
# Maps that remember insertion order

The dictionaries of Python and the associative arrays of the shell: a
list of entries whose keys are distinct. Setting a key that is present
replaces its value in place, a new key goes to the end.

- `get_set`, `get_erase`, `get_update` say what an operation does to
  every key at once;
- counting with such a map (`countAll`) adds up to the length of the list
  (`total_countAll`); its keys are those of the list.
-/

structure AssocMap (κ ν : Type*) where
  entries : List (κ × ν)
  nodup : (entries.map Prod.fst).Nodup

namespace AssocMap

variable {κ ν : Type*}

/-- The map without entries. -/
def empty : AssocMap κ ν := ⟨[], List.nodup_nil⟩

def keys (m : AssocMap κ ν) : List κ := m.entries.map Prod.fst

theorem nodup_keys (m : AssocMap κ ν) : m.keys.Nodup := m.nodup

variable [DecidableEq κ]

/-- The value of the first entry for `k`. -/
def find (k : κ) : List (κ × ν) → Option ν
  | [] => none
  | (k', v) :: rest => if k = k' then some v else find k rest

def get (m : AssocMap κ ν) (k : κ) : Option ν := find k m.entries

/-- Replace the value of `k` where it stands, or add it at the end. -/
def setEntries (k : κ) (v : ν) : List (κ × ν) → List (κ × ν)
  | [] => [(k, v)]
  | (k', v') :: rest => if k = k' then (k, v) :: rest else (k', v') :: setEntries k v rest

theorem map_fst_setEntries (k : κ) (v : ν) : ∀ l : List (κ × ν),
    (setEntries k v l).map Prod.fst
      = if k ∈ l.map Prod.fst then l.map Prod.fst else l.map Prod.fst ++ [k]
  | [] => rfl
  | (k', v') :: rest => by
      unfold setEntries
      rcases eq_or_ne k k' with rfl | h
      · simp
      · rw [if_neg h, List.map_cons, map_fst_setEntries k v rest]
        simp only [List.map_cons, List.mem_cons, h, false_or]
        split <;> rfl

def set (m : AssocMap κ ν) (k : κ) (v : ν) : AssocMap κ ν where
  entries := setEntries k v m.entries
  nodup := by
    rw [map_fst_setEntries]
    split
    · exact m.nodup
    · next h => exact List.nodup_append.mpr ⟨m.nodup, List.nodup_singleton k, by
        rintro a ha b hb rfl
        exact h (List.mem_singleton.mp hb ▸ ha)⟩

def erase (m : AssocMap κ ν) (k : κ) : AssocMap κ ν where
  entries := m.entries.filter fun e => decide (e.1 ≠ k)
  nodup := m.nodup.sublist (List.Sublist.map _ List.filter_sublist)

/-- Set every entry of `changes`, in order. -/
def update (m changes : AssocMap κ ν) : AssocMap κ ν :=
  changes.entries.foldl (fun m e => m.set e.1 e.2) m

/-! ## Lookups -/

@[simp] theorem find_nil (k : κ) : find k ([] : List (κ × ν)) = none := rfl

theorem find_cons (k k' : κ) (v : ν) (l : List (κ × ν)) :
    find k ((k', v) :: l) = if k = k' then some v else find k l := rfl

theorem find_eq_none_iff {k : κ} : ∀ {l : List (κ × ν)}, find k l = none ↔ k ∉ l.map Prod.fst
  | [] => by simp
  | (k', v) :: rest => by
      rw [find_cons, List.map_cons, List.mem_cons]
      by_cases h : k = k'
      · simp [h]
      · simp only [h, if_false, false_or]
        exact find_eq_none_iff

@[simp] theorem get_empty (k : κ) : (empty : AssocMap κ ν).get k = none := rfl

theorem get_eq_some_iff {m : AssocMap κ ν} {k : κ} {v : ν} :
    m.get k = some v ↔ (k, v) ∈ m.entries := by
  obtain ⟨l, h⟩ := m
  simp only [get]
  induction l with
  | nil => simp
  | cons e rest ih =>
      rw [List.map_cons, List.nodup_cons] at h
      obtain ⟨k', v'⟩ := e
      rw [find_cons, List.mem_cons]
      rcases eq_or_ne k k' with rfl | heq
      · have hnot : (k, v) ∉ rest := fun hin => h.1 (List.mem_map.mpr ⟨(k, v), hin, rfl⟩)
        simp [hnot, eq_comm]
      · simp only [Prod.mk.injEq, heq, false_and, false_or]
        exact ih h.2

theorem get_eq_none_iff {m : AssocMap κ ν} {k : κ} : m.get k = none ↔ k ∉ m.keys :=
  find_eq_none_iff

theorem get_isSome_iff {m : AssocMap κ ν} {k : κ} : (m.get k).isSome = true ↔ k ∈ m.keys := by
  rw [← not_iff_not, Bool.not_eq_true, Option.isSome_eq_false_iff, Option.isNone_iff_eq_none,
    get_eq_none_iff]

theorem keys_set (m : AssocMap κ ν) (k : κ) (v : ν) :
    (m.set k v).keys = if k ∈ m.keys then m.keys else m.keys ++ [k] :=
  map_fst_setEntries k v m.entries

theorem get_set (m : AssocMap κ ν) (k : κ) (v : ν) (k' : κ) :
    (m.set k v).get k' = if k' = k then some v else m.get k' := by
  have h : ∀ l : List (κ × ν),
      find k' (setEntries k v l) = if k' = k then some v else find k' l := by
    intro l
    induction l with
    | nil => rw [setEntries, find_cons]
    | cons e rest ih =>
        obtain ⟨k₀, v₀⟩ := e
        unfold setEntries
        rcases eq_or_ne k k₀ with rfl | heq
        · rw [if_pos rfl, find_cons, find_cons]
          by_cases h' : k' = k <;> simp [h']
        · rw [if_neg heq, find_cons, find_cons, ih]
          rcases eq_or_ne k' k with rfl | h'
          · simp [heq]
          · simp [h']
  exact h m.entries

@[simp] theorem get_set_self (m : AssocMap κ ν) (k : κ) (v : ν) :
    (m.set k v).get k = some v := by
  rw [get_set, if_pos rfl]

theorem get_set_of_ne (m : AssocMap κ ν) {k k' : κ} (h : k' ≠ k) (v : ν) :
    (m.set k v).get k' = m.get k' := by
  rw [get_set, if_neg h]

theorem get_erase (m : AssocMap κ ν) (k k' : κ) :
    (m.erase k).get k' = if k' = k then none else m.get k' := by
  refine Option.ext fun v => ?_
  rw [get_eq_some_iff, erase, List.mem_filter, decide_eq_true_iff, ← get_eq_some_iff]
  by_cases h : k' = k <;> simp [h]

theorem keys_erase (m : AssocMap κ ν) (k : κ) :
    (m.erase k).keys = m.keys.filter fun k' => decide (k' ≠ k) := by
  rw [keys, erase, keys, List.filter_map]
  rfl

/-- There is always a key to spare. -/
theorem exists_get_eq_none [Infinite κ] (m : AssocMap κ ν) : ∃ k, m.get k = none := by
  obtain ⟨k, hk⟩ := Infinite.exists_notMem_finset m.keys.toFinset
  exact ⟨k, get_eq_none_iff.mpr fun hmem => hk (List.mem_toFinset.mpr hmem)⟩

/-- The later entries win. -/
theorem get_update (m changes : AssocMap κ ν) (k : κ) :
    (m.update changes).get k = (changes.get k).or (m.get k) := by
  obtain ⟨l, h⟩ := changes
  simp only [update, get]
  induction l generalizing m with
  | nil => rfl
  | cons e rest ih =>
      rw [List.map_cons, List.nodup_cons] at h
      obtain ⟨k₀, v₀⟩ := e
      rw [List.foldl_cons]
      refine (ih (m.set k₀ v₀) h.2).trans ?_
      change (find k rest).or ((m.set k₀ v₀).get k) = _
      rw [get_set, find_cons]
      rcases eq_or_ne k k₀ with rfl | heq
      · simp [find_eq_none_iff.mpr h.1]
      · rw [if_neg heq, if_neg heq]
        rfl

/-! ## Setting many entries -/

section SetAll

variable {β : Type*}

/-- Set an entry for every element of a list. -/
def setAll (key : β → κ) (value : β → ν) (m : AssocMap κ ν) (l : List β) : AssocMap κ ν :=
  l.foldl (fun m e => m.set (key e) (value e)) m

variable {key : β → κ} {value : β → ν}

/-- A value is that of an element with its key. -/
theorem get_setAll {k : κ} {v : ν} : ∀ {l : List β} {m : AssocMap κ ν},
    (setAll key value m l).get k = some v →
    (∃ e ∈ l, key e = k ∧ value e = v) ∨ m.get k = some v
  | [], m, h => Or.inr h
  | e :: l, m, h => by
      rcases get_setAll (l := l) h with ⟨e', he', h'⟩ | hset
      · exact Or.inl ⟨e', List.mem_cons_of_mem _ he', h'⟩
      · rw [get_set] at hset
        by_cases hk : k = key e
        · rw [if_pos hk] at hset
          exact Or.inl ⟨e, List.mem_cons_self, hk.symm, Option.some.inj hset⟩
        · rw [if_neg hk] at hset
          exact Or.inr hset

/-- Keys are not lost. -/
theorem get_setAll_isSome {k : κ} : ∀ {l : List β} {m : AssocMap κ ν},
    (∃ e ∈ l, key e = k) ∨ (m.get k).isSome → ((setAll key value m l).get k).isSome
  | [], m, h => by
      rcases h with ⟨e, he, -⟩ | h
      · cases he
      · exact h
  | e :: l, m, h => by
      refine get_setAll_isSome (l := l) ?_
      rcases eq_or_ne (key e) k with rfl | hk
      · exact Or.inr (by rw [get_set_self]; rfl)
      · rcases h with ⟨e', he', h'⟩ | h
        · rcases List.mem_cons.mp he' with rfl | he'
          · exact absurd h' hk
          · exact Or.inl ⟨e', he', h'⟩
        · exact Or.inr (by rw [get_set_of_ne _ (Ne.symm hk)]; exact h)

/-- All elements with the key agree. -/
theorem get_setAll_eq {k : κ} {v : ν} {l : List β} (hmem : ∃ e ∈ l, key e = k)
    (hall : ∀ e ∈ l, key e = k → value e = v) : (setAll key value .empty l).get k = some v := by
  obtain ⟨w, hw⟩ := Option.isSome_iff_exists.mp (@get_setAll_isSome κ ν _ β key value k l .empty
    (Or.inl hmem))
  rcases get_setAll hw with ⟨e, he, hkey, rfl⟩ | hempty
  · rw [hw, hall e he hkey]
  · cases hempty

theorem get_setAll_none {k : κ} {l : List β} (h : ∀ e ∈ l, key e ≠ k) :
    (setAll key value .empty l).get k = none := by
  rw [Option.eq_none_iff_forall_ne_some]
  intro v hv
  rcases get_setAll hv with ⟨e, he, hkey, -⟩ | hempty
  · exact h e he hkey
  · cases hempty

/-- The value set last is the one that stays. -/
theorem get_setAll_last {k : κ} (m : AssocMap κ ν) (l : List β) :
    (setAll key value m l).get k
      = ((l.reverse.find? fun e => decide (key e = k)).map value).or (m.get k) := by
  induction l using List.reverseRecOn with
  | nil => rfl
  | append_singleton l e ih =>
      have hstep : setAll key value m (l ++ [e])
          = (setAll key value m l).set (key e) (value e) := by
        rw [setAll, List.foldl_append]
        rfl
      rw [hstep, get_set, List.reverse_append, List.reverse_singleton, List.singleton_append,
        List.find?_cons]
      by_cases hk : k = key e
      · rw [if_pos hk, decide_eq_true hk.symm]
        rfl
      · rw [if_neg hk, decide_eq_false (Ne.symm hk)]
        exact ih

/-- What all elements with the key have, and the default if there are none. -/
theorem getD_setAll {p : ν → Prop} {k : κ} {d : ν} {l : List β}
    (hall : ∀ e ∈ l, key e = k → p (value e)) (hnone : (∀ e ∈ l, key e ≠ k) → p d) :
    p (((setAll key value .empty l).get k).getD d) := by
  cases hget : (setAll key value .empty l).get k with
  | none =>
      refine hnone fun e he hkey => ?_
      have hsome := @get_setAll_isSome κ ν _ β key value k l .empty (Or.inl ⟨e, he, hkey⟩)
      rw [hget] at hsome
      cases hsome
  | some v =>
      rcases get_setAll hget with ⟨e, he, hkey, rfl⟩ | hempty
      · exact hall e he hkey
      · cases hempty

end SetAll

/-! ## Counting -/

section Counting

variable {β : Type*}

/-- Count one more occurrence of `k`; the first one leaves `b` behind. -/
def bump (m : AssocMap κ (Nat × β)) (k : κ) (b : β) : AssocMap κ (Nat × β) :=
  match m.get k with
  | some (count, first) => m.set k (count + 1, first)
  | none => m.set k (1, b)

def bumpAll (m : AssocMap κ (Nat × β)) (l : List (κ × β)) : AssocMap κ (Nat × β) :=
  l.foldl (fun m e => m.bump e.1 e.2) m

def countAll (l : List (κ × β)) : AssocMap κ (Nat × β) := empty.bumpAll l

/-- The number beside `k`. -/
def countOf (m : AssocMap κ (Nat × β)) (k : κ) : Nat :=
  match m.get k with
  | some e => e.1
  | none => 0

/-- The sum of all numbers. -/
def total (m : AssocMap κ (Nat × β)) : Nat := (m.entries.map fun e => e.2.1).sum

theorem bump_eq_set (m : AssocMap κ (Nat × β)) (k : κ) (b : β) :
    ∃ first, m.bump k b = m.set k (m.countOf k + 1, first) := by
  rw [bump, countOf]
  cases m.get k with
  | none => exact ⟨b, rfl⟩
  | some e => exact ⟨e.2, rfl⟩

theorem keys_bump (m : AssocMap κ (Nat × β)) (k : κ) (b : β) :
    (m.bump k b).keys = if k ∈ m.keys then m.keys else m.keys ++ [k] := by
  obtain ⟨first, h⟩ := m.bump_eq_set k b
  rw [h, keys_set]

theorem sum_setEntries (k : κ) (first : β) : ∀ {l : List (κ × (Nat × β))} {n : Nat},
    (find k l).elim 0 Prod.fst = n →
      ((setEntries k (n + 1, first) l).map fun e => e.2.1).sum
        = (l.map fun e => e.2.1).sum + 1
  | [], n, h => by
      subst h
      rfl
  | (k', v) :: rest, n, h => by
      rw [find_cons] at h
      unfold setEntries
      by_cases heq : k = k'
      · rw [if_pos heq] at h
        subst h
        rw [if_pos heq]
        simp only [List.map_cons, List.sum_cons, Option.elim_some]
        omega
      · rw [if_neg heq] at h
        rw [if_neg heq]
        simp only [List.map_cons, List.sum_cons, sum_setEntries k first h]
        omega

theorem total_bump (m : AssocMap κ (Nat × β)) (k : κ) (b : β) :
    (m.bump k b).total = m.total + 1 := by
  obtain ⟨first, h⟩ := m.bump_eq_set k b
  rw [h]
  refine sum_setEntries k first ?_
  rw [countOf, get]
  cases find k m.entries <;> rfl

theorem total_bumpAll (l : List (κ × β)) : ∀ m : AssocMap κ (Nat × β),
    (m.bumpAll l).total = m.total + l.length := by
  induction l with
  | nil => intro m; rfl
  | cons e rest ih =>
      intro m
      rw [bumpAll, List.foldl_cons]
      refine (ih _).trans ?_
      rw [total_bump, List.length_cons]
      omega

theorem mem_keys_bumpAll (l : List (κ × β)) (k : κ) : ∀ m : AssocMap κ (Nat × β),
    k ∈ (m.bumpAll l).keys ↔ k ∈ m.keys ∨ k ∈ l.map Prod.fst := by
  induction l with
  | nil => intro m; simp [bumpAll]
  | cons e rest ih =>
      intro m
      rw [bumpAll, List.foldl_cons]
      refine (ih _).trans ?_
      rw [keys_bump, List.map_cons, List.mem_cons]
      split
      · next hin =>
          constructor
          · exact fun h => h.imp id .inr
          · rintro (h | rfl | h)
            · exact .inl h
            · exact .inl hin
            · exact .inr h
      · rw [List.mem_append, List.mem_singleton, or_assoc]

theorem total_countAll (l : List (κ × β)) : (countAll l).total = l.length := by
  rw [countAll, total_bumpAll]
  exact Nat.zero_add _

theorem mem_keys_countAll {l : List (κ × β)} {k : κ} :
    k ∈ (countAll l).keys ↔ k ∈ l.map Prod.fst := by
  rw [countAll, mem_keys_bumpAll]
  exact or_iff_right List.not_mem_nil

end Counting

end AssocMap

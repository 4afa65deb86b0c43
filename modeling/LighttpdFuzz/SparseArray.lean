import Mathlib.Data.List.Nodup
import Mathlib.Data.List.Pairwise

/-!
# Indexed arrays of the shell

An indexed array has values at some indices; `a+=(v)` puts a value after
the largest index, `unset a[i]` leaves a hole. A loop over `"${!a[@]}"`
runs over the indices that there were at its beginning: what is appended
meanwhile has a new index, and a removal leaves the other indices alone
(`get_push_of_isSome`, `get_unset_of_ne`).
-/

/-- Index-value pairs with increasing indices. -/
structure SparseArray (α : Type) where
  entries : List (Nat × α)
  increasing : entries.Pairwise fun e f => e.1 < f.1

namespace SparseArray

variable {α : Type}

def empty : SparseArray α := ⟨[], List.Pairwise.nil⟩

/-- `"${!a[@]}"` -/
def indices (a : SparseArray α) : List Nat := a.entries.map Prod.fst

/-- `"${a[@]}"` -/
def values (a : SparseArray α) : List α := a.entries.map Prod.snd

/-- `${a[i]}` -/
def get (a : SparseArray α) (i : Nat) : Option α :=
  (a.entries.find? fun e => e.1 = i).map Prod.snd

/-- The index of the next value: after the largest one. -/
def nextIndex (a : SparseArray α) : Nat :=
  match a.entries.getLast? with
  | some e => e.1 + 1
  | none => 0

theorem lt_nextIndex {a : SparseArray α} {e : Nat × α} (h : e ∈ a.entries) :
    e.1 < a.nextIndex := by
  have hne : a.entries ≠ [] := List.ne_nil_of_mem h
  have hsplit := List.dropLast_concat_getLast hne
  have hlast : a.nextIndex = (a.entries.getLast hne).1 + 1 := by
    rw [nextIndex, List.getLast?_eq_some_getLast hne]
  have hpair := a.increasing
  rw [← hsplit] at h hpair
  rcases List.mem_append.mp h with hinit | hend
  · have hlt := (List.pairwise_append.mp hpair).2.2 e hinit _ (List.mem_singleton_self _)
    omega
  · rw [List.mem_singleton.mp hend, hlast]
    exact Nat.lt_succ_self _

/-- `a+=(v)` -/
def push (a : SparseArray α) (v : α) : SparseArray α where
  entries := a.entries ++ [(a.nextIndex, v)]
  increasing := List.pairwise_append.mpr ⟨a.increasing, List.pairwise_singleton _ _, by
    intro e he f hf
    rw [List.mem_singleton.mp hf]
    exact lt_nextIndex he⟩

/-- `unset "a[i]"` -/
def unset (a : SparseArray α) (i : Nat) : SparseArray α where
  entries := a.entries.filter fun e => e.1 ≠ i
  increasing := a.increasing.sublist List.filter_sublist

theorem nodup_indices (a : SparseArray α) : a.indices.Nodup := by
  rw [indices, List.Nodup, List.pairwise_map]
  exact a.increasing.imp fun h => Nat.ne_of_lt h

theorem get_eq_some_iff {a : SparseArray α} {i : Nat} {v : α} :
    a.get i = some v ↔ (i, v) ∈ a.entries := by
  rw [get, Option.map_eq_some_iff]
  constructor
  · rintro ⟨e, he, rfl⟩
    have hi := List.find?_some he
    have hmem := List.mem_of_find?_eq_some he
    rw [← of_decide_eq_true hi]
    exact hmem
  · intro hmem
    cases hfind : a.entries.find? fun e => e.1 = i with
    | none => exact absurd (decide_eq_true rfl) (List.find?_eq_none.mp hfind (i, v) hmem)
    | some e =>
        have hi : e.1 = i := by simpa using List.find?_some hfind
        have hsame : e = (i, v) :=
          List.inj_on_of_nodup_map a.nodup_indices (List.mem_of_find?_eq_some hfind) hmem hi
        exact ⟨e, rfl, by rw [hsame]⟩

theorem mem_indices_iff {a : SparseArray α} {i : Nat} : i ∈ a.indices ↔ (a.get i).isSome := by
  rw [Option.isSome_iff_exists, indices, List.mem_map]
  constructor
  · rintro ⟨e, he, rfl⟩
    exact ⟨e.2, get_eq_some_iff.mpr he⟩
  · rintro ⟨v, hv⟩
    exact ⟨(i, v), get_eq_some_iff.mp hv, rfl⟩

theorem mem_values_of_get {a : SparseArray α} {i : Nat} {v : α} (h : a.get i = some v) :
    v ∈ a.values :=
  List.mem_map.mpr ⟨_, get_eq_some_iff.mp h, rfl⟩

@[simp] theorem values_empty : (empty : SparseArray α).values = [] := rfl

@[simp] theorem values_push (a : SparseArray α) (v : α) :
    (a.push v).values = a.values ++ [v] := by
  rw [values, push, List.map_append]
  rfl

/-- A value that is there once is gone after its index is unset. -/
theorem mem_values_unset {a : SparseArray α} {i : Nat} {v w : α} (hnodup : a.values.Nodup)
    (hi : a.get i = some v) : w ∈ (a.unset i).values ↔ w ∈ a.values ∧ w ≠ v := by
  have hentry := get_eq_some_iff.mp hi
  rw [values, unset, List.mem_map, values, List.mem_map]
  constructor
  · rintro ⟨e, he, rfl⟩
    obtain ⟨hmem, hne⟩ := List.mem_filter.mp he
    refine ⟨⟨e, hmem, rfl⟩, fun hv => ?_⟩
    have hsame : e = (i, v) := List.inj_on_of_nodup_map hnodup hmem hentry hv
    exact of_decide_eq_true hne (by rw [hsame])
  · rintro ⟨⟨e, he, rfl⟩, hne⟩
    refine ⟨e, List.mem_filter.mpr ⟨he, decide_eq_true fun hi' => hne ?_⟩, rfl⟩
    have hsame : e = (i, v) := List.inj_on_of_nodup_map a.nodup_indices he hentry hi'
    rw [hsame]

theorem nodup_values_unset {a : SparseArray α} (h : a.values.Nodup) (i : Nat) :
    (a.unset i).values.Nodup :=
  h.sublist (List.Sublist.map _ List.filter_sublist)

theorem get_push_of_isSome {a : SparseArray α} {i : Nat} (h : (a.get i).isSome) (v : α) :
    ((a.push v).get i).isSome := by
  rw [← mem_indices_iff] at h ⊢
  rw [indices, push, List.map_append]
  exact List.mem_append_left _ h

theorem get_unset_of_ne {a : SparseArray α} {i j : Nat} (hne : j ≠ i) (h : (a.get j).isSome) :
    ((a.unset i).get j).isSome := by
  obtain ⟨v, hv⟩ := Option.isSome_iff_exists.mp h
  refine Option.isSome_iff_exists.mpr ⟨v, get_eq_some_iff.mpr ?_⟩
  exact List.mem_filter.mpr ⟨get_eq_some_iff.mp hv, decide_eq_true hne⟩

end SparseArray

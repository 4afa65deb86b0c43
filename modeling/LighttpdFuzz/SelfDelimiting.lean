import Mathlib.Data.List.Basic

/-!
# Self-delimiting item formats

A byte format that is nothing but a sequence of items, each of which
announces its own end, is determined by how one item is read off the
front of the input. A `Framing` packages such a reader with the two
facts that make it one: it reads back every spelling of an item whatever
follows, and it accepts nothing but spellings. From these alone, reading
items until the input is empty succeeds exactly on concatenations of
spellings, with the items that they spell (`readAll_eq_some_iff`).

An item may have several spellings (a length written in a longer form,
say); `Spells` is therefore a relation.

Where an item is made of parts, its reader is a chain of readers, each of
which takes what the one before has left. `Reads` is the fact about one
word that such chains are built from, and it is enough for the words to be
prefix-free (`Reads.eq_of_isPrefix`).
-/

/-- The reader takes exactly `w` off the front, whatever follows. -/
def Reads {α β : Type*} (read : List β → Option (α × List β)) (w : List β) (a : α) : Prop :=
  ∀ t, read (w ++ t) = some (a, t)

namespace Reads

variable {α β : Type*} {read : List β → Option (α × List β)} {w w' : List β} {a a' : α}

/-- No word that a reader takes is the beginning of another. -/
theorem eq_of_isPrefix (h : Reads read w a) (h' : Reads read w' a') (hp : w <+: w') :
    a = a' ∧ w = w' := by
  obtain ⟨s, rfl⟩ := hp
  have hread := h' []
  rw [List.append_nil, h s] at hread
  obtain ⟨rfl, rfl⟩ := Prod.mk.injEq .. |>.mp (Option.some.inj hread)
  exact ⟨rfl, (List.append_nil w).symm⟩

end Reads

/-- A reader of one item, with the set of spellings it accepts. -/
structure Framing (α β : Type*) where
  /-- `w` is one of the spellings of the item `a`. -/
  Spells : List β → α → Prop
  /-- Read one item off the front, returning what follows it. -/
  read : List β → Option (α × List β)
  read_append : ∀ {w a}, Spells w a → ∀ t, read (w ++ t) = some (a, t)
  spells_of_read : ∀ {l a t}, read l = some (a, t) → ∃ w, Spells w a ∧ l = w ++ t
  ne_nil : ∀ {w a}, Spells w a → w ≠ []

namespace Framing

variable {α β : Type*} {F : Framing α β}

/-- `l` is a concatenation of spellings of the items `as`, in order. -/
inductive SpellsAll (F : Framing α β) : List β → List α → Prop
  | nil : SpellsAll F [] []
  | cons {w l : List β} {a : α} {as : List α} :
      F.Spells w a → SpellsAll F l as → SpellsAll F (w ++ l) (a :: as)

/-- A read item is strictly shorter than what it was read from. -/
theorem length_lt_of_read {l t : List β} {a : α} (h : F.read l = some (a, t)) :
    t.length < l.length := by
  obtain ⟨w, hw, rfl⟩ := F.spells_of_read h
  have hpos : 0 < w.length := List.length_pos_of_ne_nil (F.ne_nil hw)
  rw [List.length_append]
  omega

theorem read_nil : F.read [] = none := by
  cases h : F.read [] with
  | none => rfl
  | some p =>
      have := length_lt_of_read (a := p.1) (t := p.2) h
      simp at this

/-- Read items until the input is empty. -/
def readAll (F : Framing α β) (l : List β) : Option (List α) :=
  if l.isEmpty then some []
  else
    match h : F.read l with
    | none => none
    | some (a, t) =>
        have := length_lt_of_read h
        (readAll F t).map (a :: ·)
termination_by l.length

theorem readAll_nil : F.readAll [] = some [] := by
  rw [readAll]; rfl

theorem readAll_of_read {l t : List β} {a : α} (h : F.read l = some (a, t)) :
    F.readAll l = (F.readAll t).map (a :: ·) := by
  have hne : l ≠ [] := fun hl => by
    rw [hl, read_nil] at h; cases h
  rw [readAll, if_neg (by simpa using hne)]
  split
  · next hnone => rw [hnone] at h; cases h
  · next hsome =>
      rw [hsome] at h
      obtain ⟨rfl, rfl⟩ := Prod.mk.injEq .. |>.mp (Option.some.inj h)
      rfl

theorem readAll_of_read_none {l : List β} (hne : l ≠ []) (h : F.read l = none) :
    F.readAll l = none := by
  rw [readAll, if_neg (by simpa using hne)]
  split
  · rfl
  · next hsome => rw [hsome] at h; cases h

theorem readAll_append {w l : List β} {a : α} (hw : F.Spells w a) :
    F.readAll (w ++ l) = (F.readAll l).map (a :: ·) :=
  readAll_of_read (F.read_append hw l)

/-- Reading all items succeeds exactly on concatenations of spellings.
Both directions follow the recursion: one reading step is one `cons`. -/
theorem readAll_eq_some_iff {l : List β} {as : List α} :
    F.readAll l = some as ↔ F.SpellsAll l as := by
  constructor
  · intro h
    induction hn : l.length using Nat.strongRecOn generalizing l as with
    | ind n ih =>
        rcases eq_or_ne l [] with rfl | hl
        · rw [readAll_nil] at h
          obtain rfl := Option.some.inj h
          exact .nil
        · cases hr : F.read l with
          | none => rw [readAll_of_read_none hl hr] at h; cases h
          | some p =>
              obtain ⟨a, t⟩ := p
              rw [readAll_of_read hr, Option.map_eq_some_iff] at h
              obtain ⟨as', hrest, rfl⟩ := h
              have hlt : t.length < n := hn ▸ length_lt_of_read hr
              obtain ⟨w, hw, rfl⟩ := F.spells_of_read hr
              exact .cons hw (ih t.length hlt hrest rfl)
  · intro h
    induction h with
    | nil => exact readAll_nil
    | cons hw _ ih => rw [readAll_append hw, ih]; rfl

end Framing

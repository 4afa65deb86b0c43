import Mathlib.Init

/-!
# Custody

Things that are held by someone. If at each step one thing gets another
holder, or none, then nothing is ever held twice (`Sole`).
-/

namespace Custody

variable {η α : Type} {holds holds' : η → α → Prop} {c : α} {dest : Option η}

/-- Nothing has two holders. -/
def Sole (holds : η → α → Prop) : Prop :=
  ∀ h h' x, holds h x → holds h' x → h = h'

/-- The thing `c` now has the holder `dest`, or none; all else stays. -/
def Moves (holds holds' : η → α → Prop) (c : α) (dest : Option η) : Prop :=
  ∀ h x, holds' h x ↔ (x = c ∧ dest = some h) ∨ (x ≠ c ∧ holds h x)

theorem Sole.moves (hsole : Sole holds) (hmoves : Moves holds holds' c dest) : Sole holds' := by
  intro h h' x hx hx'
  rcases (hmoves h x).mp hx with ⟨hc, hto⟩ | ⟨hne, hold⟩
  · rcases (hmoves h' x).mp hx' with ⟨-, hto'⟩ | ⟨hne, -⟩
    · exact Option.some.inj (hto.symm.trans hto')
    · exact absurd hc hne
  · rcases (hmoves h' x).mp hx' with ⟨hc, -⟩ | ⟨-, hold'⟩
    · exact absurd hc hne
    · exact hsole h h' x hold hold'

/-- Something that nobody holds is given to somebody. -/
theorem moves_of_new {h' : η} (hnew : ∀ h, ¬ holds h c)
    (hto : ∀ x, holds' h' x ↔ x = c ∨ holds h' x)
    (hrest : ∀ h, h ≠ h' → ∀ x, holds' h x ↔ holds h x) : Moves holds holds' c (some h') := by
  intro h x
  have hne : holds h x → x ≠ c := by
    rintro hx rfl
    exact hnew h hx
  by_cases hh : h = h'
  · subst hh
    rw [hto]
    exact ⟨Or.imp (⟨·, rfl⟩) fun hx => ⟨hne hx, hx⟩, Or.imp And.left And.right⟩
  · rw [hrest h hh]
    refine ⟨fun hx => .inr ⟨hne hx, hx⟩, ?_⟩
    rintro (⟨-, heq⟩ | ⟨-, hx⟩)
    · exact absurd (Option.some.inj heq).symm hh
    · exact hx

/-- The holder `h₀` of `c` gives it away, to another holder or for good. -/
theorem Sole.moves_of_held (hsole : Sole holds) {h₀ : η} (hc : holds h₀ c)
    (hfrom : ∀ x, holds' h₀ x ↔ x ≠ c ∧ holds h₀ x)
    (hto : ∀ h, dest = some h → h ≠ h₀ ∧ ∀ x, holds' h x ↔ x = c ∨ holds h x)
    (hrest : ∀ h, h ≠ h₀ → dest ≠ some h → ∀ x, holds' h x ↔ holds h x) :
    Moves holds holds' c dest := by
  intro h x
  by_cases hh : h = h₀
  · subst hh
    rw [hfrom]
    refine ⟨.inr, ?_⟩
    rintro (⟨-, heq⟩ | hx)
    · exact absurd rfl (hto h heq).1
    · exact hx
  · have hne : holds h x → x ≠ c := by
      rintro hx rfl
      exact hh (hsole h h₀ x hx hc)
    by_cases ht : dest = some h
    · rw [(hto h ht).2]
      exact ⟨Or.imp (⟨·, ht⟩) fun hx => ⟨hne hx, hx⟩, Or.imp And.left And.right⟩
    · rw [hrest h hh ht]
      refine ⟨fun hx => .inr ⟨hne hx, hx⟩, ?_⟩
      rintro (⟨-, heq⟩ | ⟨-, hx⟩)
      · exact absurd heq ht
      · exact hx

/-- Everything else keeps its holder. -/
theorem Moves.held (hmoves : Moves holds holds' c dest) {x : α} (hx : x ≠ c)
    (hheld : ∃ h, holds h x) : ∃ h, holds' h x := by
  obtain ⟨h, hold⟩ := hheld
  exact ⟨h, (hmoves h x).mpr (.inr ⟨hx, hold⟩)⟩

theorem Moves.held_self {h : η} (hmoves : Moves holds holds' c (some h)) : ∃ h, holds' h c :=
  ⟨h, (hmoves h c).mpr (.inl ⟨rfl, rfl⟩)⟩

end Custody

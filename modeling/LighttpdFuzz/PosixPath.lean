import LighttpdFuzz.LineTools
import LighttpdFuzz.PyText

/-!
# Resolved paths and relative names

A resolved path is absolute and has no `.` or `..` component, so it is
the list of its components. `os.path.relpath` gives different names to
different resolved paths (`relative_injective`): the leading `..`s tell
how much of the start they share with it, and the rest follows.
-/

namespace PosixPath

open LineTools

def dot : Text := ['.']

def dotdot : Text := ['.', '.']

/-- An absolute path without links and without `.` or `..`. -/
structure Resolved where
  parts : List Text
  plain : ∀ part ∈ parts, part ≠ [] ∧ '/' ∉ part ∧ part ≠ dot ∧ part ≠ dotdot
  deriving DecidableEq

/-- `str(path)`. -/
def Resolved.text (path : Resolved) : Text := '/' :: Text.join ['/'] path.parts

/-- `os.path.commonprefix` of two component lists, as a length. -/
def commonLength : List Text → List Text → Nat
  | a :: as, b :: bs => if a = b then commonLength as bs + 1 else 0
  | _, _ => 0

/-- The components of `os.path.relpath(path, start)`. -/
def relativeParts (start path : Resolved) : List Text :=
  List.replicate (start.parts.length - commonLength start.parts path.parts) dotdot
    ++ path.parts.drop (commonLength start.parts path.parts)

/-- `os.path.relpath(path, start)`. -/
def relative (start path : Resolved) : Text :=
  if relativeParts start path = [] then dot else Text.join ['/'] (relativeParts start path)

theorem commonLength_le : ∀ as bs : List Text, commonLength as bs ≤ as.length
  | [], _ => Nat.zero_le _
  | a :: as, [] => Nat.zero_le _
  | a :: as, b :: bs => by
      unfold commonLength
      have h := commonLength_le as bs
      split
      · exact Nat.succ_le_succ h
      · exact Nat.zero_le _

theorem take_commonLength : ∀ as bs : List Text,
    as.take (commonLength as bs) = bs.take (commonLength as bs)
  | [], _ => by simp [commonLength]
  | a :: as, [] => by simp [commonLength]
  | a :: as, b :: bs => by
      unfold commonLength
      split
      · next h => rw [h, List.take_succ_cons, List.take_succ_cons, take_commonLength as bs]
      · rfl

/-- Components without the separator can be read back from the joined text. -/
theorem join_injective {sep : Char} : ∀ {as bs : List Text}, as ≠ [] → bs ≠ [] →
    (∀ a ∈ as, sep ∉ a) → (∀ b ∈ bs, sep ∉ b) → Text.join [sep] as = Text.join [sep] bs →
      as = bs
  | [], _, hne, _, _, _, _ => absurd rfl hne
  | _, [], _, hne, _, _, _ => absurd rfl hne
  | [a], [b], _, _, _, _, h => by
      rw [Text.join, Text.join] at h
      rw [h]
  | [a], b :: b' :: bs, _, _, ha, _, h => by
      rw [Text.join, Text.join] at h
      refine absurd ?_ (ha a List.mem_cons_self)
      rw [h]
      simp
  | a :: a' :: as, [b], _, _, _, hb, h => by
      rw [Text.join, Text.join] at h
      refine absurd ?_ (hb b List.mem_cons_self)
      rw [← h]
      simp
  | a :: a' :: as, b :: b' :: bs, _, _, ha, hb, h => by
      rw [Text.join, Text.join, List.singleton_append, List.singleton_append] at h
      obtain ⟨rfl, htail⟩ := split_unique (ha a List.mem_cons_self) (hb b List.mem_cons_self) h
      have hrest := join_injective (List.cons_ne_nil a' as) (List.cons_ne_nil b' bs)
        (fun x hx => ha x (List.mem_cons_of_mem a hx))
        (fun x hx => hb x (List.mem_cons_of_mem a hx)) htail
      rw [hrest]

theorem notMem_relativeParts {start path : Resolved} {part : Text}
    (h : part ∈ relativeParts start path) : '/' ∉ part ∧ part ≠ dot := by
  rw [relativeParts, List.mem_append] at h
  obtain h | h := h
  · rw [List.eq_of_mem_replicate h]
    decide
  · have hplain := path.plain part (List.mem_of_mem_drop h)
    exact ⟨hplain.2.1, hplain.2.2.1⟩

/-- A run of one value in front of a list without it is determined. -/
theorem replicate_append_injective {α : Type*} {x : α} {as bs : List α} (ha : x ∉ as)
    (hb : x ∉ bs) : ∀ {m n : Nat},
      List.replicate m x ++ as = List.replicate n x ++ bs → m = n ∧ as = bs
  | 0, 0, h => ⟨rfl, h⟩
  | 0, n + 1, h => by
      rw [List.replicate_zero, List.nil_append, List.replicate_succ, List.cons_append] at h
      rw [h] at ha
      exact absurd List.mem_cons_self ha
  | m + 1, 0, h => by
      rw [List.replicate_zero, List.nil_append, List.replicate_succ, List.cons_append] at h
      rw [← h] at hb
      exact absurd List.mem_cons_self hb
  | m + 1, n + 1, h => by
      rw [List.replicate_succ, List.replicate_succ, List.cons_append, List.cons_append,
        List.cons.injEq] at h
      obtain ⟨rfl, htail⟩ := replicate_append_injective ha hb h.2
      exact ⟨rfl, htail⟩

theorem relativeParts_injective {start p q : Resolved}
    (h : relativeParts start p = relativeParts start q) : p = q := by
  have hno : ∀ (path : Resolved) (n : Nat), dotdot ∉ path.parts.drop n := fun path n hin =>
    (path.plain dotdot (List.mem_of_mem_drop hin)).2.2.2 rfl
  obtain ⟨hup, hdown⟩ := replicate_append_injective (hno p _) (hno q _) h
  have hp := commonLength_le start.parts p.parts
  have hq := commonLength_le start.parts q.parts
  have hcommon : commonLength start.parts p.parts = commonLength start.parts q.parts := by omega
  have hparts : p.parts = q.parts := by
    rw [← List.take_append_drop (commonLength start.parts p.parts) p.parts, hdown,
      ← take_commonLength, hcommon, take_commonLength, List.take_append_drop]
  cases p
  cases q
  cases hparts
  rfl

/-- Different resolved paths have different names relative to one start. -/
theorem relative_injective (start : Resolved) : Function.Injective (relative start) := by
  intro p q h
  have hjoin : ∀ {path : Resolved}, relativeParts start path ≠ [] →
      Text.join ['/'] (relativeParts start path) ≠ dot := by
    intro path hne hdot
    have hsingle := join_injective hne (List.cons_ne_nil dot [])
      (fun part hpart => (notMem_relativeParts hpart).1) (by decide) hdot
    exact (notMem_relativeParts (hsingle ▸ List.mem_singleton.mpr rfl)).2 rfl
  rw [relative, relative] at h
  apply relativeParts_injective
  split at h
  · next hp =>
      split at h
      · next hq => rw [hp, hq]
      · next hq => exact absurd h.symm (hjoin hq)
  · next hp =>
      split at h
      · exact absurd h (hjoin hp)
      · next hq =>
          exact join_injective hp hq (fun part hpart => (notMem_relativeParts hpart).1)
            (fun part hpart => (notMem_relativeParts hpart).1) h

end PosixPath

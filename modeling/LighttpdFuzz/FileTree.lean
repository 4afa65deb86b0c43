import LighttpdFuzz.PosixPath
import Mathlib.Data.List.Sort

/-!
# Walks over directory trees

A walk lists a directory, comes to its files in the order of their names,
and then goes on into its directories, in order, except those it is told
to skip. Links to directories are not followed, and a directory that
cannot be read is reported. What a walk comes to does not depend on the
order (`mem_walk_iff`).
-/

namespace PosixPath

/-- The name of a directory entry. -/
structure FileName where
  text : Text
  plain : text ≠ [] ∧ '/' ∉ text ∧ text ≠ dot ∧ text ≠ dotdot

def Resolved.child (path : Resolved) (name : FileName) : Resolved where
  parts := path.parts ++ [name.text]
  plain := List.forall_mem_append.mpr ⟨path.plain, List.forall_mem_singleton.mpr name.plain⟩

end PosixPath

open PosixPath

/-- A directory tree, with what is known about each file. -/
inductive FileTree (α : Type) where
  | file (content : α)
  | directory (entries : List (FileName × FileTree α))
  | unreadable (message : Text)
  /-- A link to a directory. -/
  | link

namespace FileTree

variable {α : Type}

/-- What a walk comes to: a file, by the names that lead to it, or a
directory that it cannot read. -/
inductive Visit (α : Type) where
  | file (names : List FileName) (content : α)
  | failed (message : Text)

/-- `sorted(...)`, by name. -/
def sorted {β : Type} (entries : List (FileName × β)) : List (FileName × β) :=
  entries.insertionSort fun a b => a.1.text ≤ b.1.text

theorem mem_sorted {β : Type} {entries : List (FileName × β)} {entry : FileName × β} :
    entry ∈ sorted entries ↔ entry ∈ entries := (List.perm_insertionSort _ entries).mem_iff

/-- The entries that are no directories. -/
def filesIn : List (FileName × FileTree α) → List (FileName × α)
  | [] => []
  | (name, .file content) :: entries => (name, content) :: filesIn entries
  | _ :: entries => filesIn entries

mutual

/-- `os.walk(top)`, with the directories in `skip` taken out of `dirs`. -/
def walk (skip : List FileName → Bool) (names : List FileName) :
    FileTree α → List (Visit α)
  | .file _ => []
  | .link => []
  | .unreadable message => [.failed message]
  | .directory entries =>
      (sorted (filesIn entries)).map (fun f => .file (names ++ [f.1]) f.2)
        ++ (sorted (walks skip names entries)).flatMap Prod.snd

/-- The walks into the entries of a directory. -/
def walks (skip : List FileName → Bool) (names : List FileName) :
    List (FileName × FileTree α) → List (FileName × List (Visit α))
  | [] => []
  | (name, tree) :: entries =>
      (name, if skip (names ++ [name]) then [] else walk skip (names ++ [name]) tree)
        :: walks skip names entries

end

/-- The walk comes to `visit`. -/
inductive Reaches (skip : List FileName → Bool) :
    List FileName → FileTree α → Visit α → Prop
  | file {names : List FileName} {entries : List (FileName × FileTree α)} {name : FileName}
      {content : α} : (name, .file content) ∈ entries →
      Reaches skip names (.directory entries) (.file (names ++ [name]) content)
  | unreadable {names : List FileName} {message : Text} :
      Reaches skip names (.unreadable message) (.failed message)
  | deeper {names : List FileName} {entries : List (FileName × FileTree α)} {name : FileName}
      {tree : FileTree α} {visit : Visit α} : (name, tree) ∈ entries →
      skip (names ++ [name]) = false → Reaches skip (names ++ [name]) tree visit →
      Reaches skip names (.directory entries) visit

theorem mem_filesIn {name : FileName} {content : α} :
    ∀ {entries : List (FileName × FileTree α)},
      (name, content) ∈ filesIn entries ↔ (name, .file content) ∈ entries
  | [] => by simp [filesIn]
  | (name', tree) :: entries => by
      cases tree with
      | file content' =>
          rw [filesIn, List.mem_cons, List.mem_cons, mem_filesIn]
          simp
      | directory _ | unreadable _ | link =>
          rw [filesIn, mem_filesIn]
          · simp
          · simp

theorem mem_walks {skip : List FileName → Bool} {names : List FileName} {name : FileName}
    {visits : List (Visit α)} : ∀ {entries : List (FileName × FileTree α)},
      (name, visits) ∈ walks skip names entries ↔ ∃ tree, (name, tree) ∈ entries
        ∧ visits = if skip (names ++ [name]) then [] else walk skip (names ++ [name]) tree
  | [] => by simp [walks]
  | (name', tree) :: entries => by
      rw [walks, List.mem_cons, mem_walks]
      constructor
      · rintro (heq | ⟨tree', hmem, hvisits⟩)
        · obtain ⟨rfl, hvisits⟩ := Prod.mk.inj heq
          exact ⟨tree, List.mem_cons_self, hvisits⟩
        · exact ⟨tree', List.mem_cons_of_mem _ hmem, hvisits⟩
      · rintro ⟨tree', hmem, hvisits⟩
        rcases List.mem_cons.mp hmem with heq | hmem
        · obtain ⟨rfl, rfl⟩ := Prod.mk.inj heq
          exact .inl (by rw [hvisits])
        · exact .inr ⟨tree', hmem, hvisits⟩

theorem mem_walk_directory {skip : List FileName → Bool} {names : List FileName}
    {entries : List (FileName × FileTree α)} {visit : Visit α} :
    visit ∈ walk skip names (.directory entries) ↔
      (∃ name content, (name, .file content) ∈ entries ∧ visit = .file (names ++ [name]) content)
      ∨ ∃ name tree, (name, tree) ∈ entries ∧ skip (names ++ [name]) = false
        ∧ visit ∈ walk skip (names ++ [name]) tree := by
  rw [walk, List.mem_append, List.mem_map, List.mem_flatMap]
  refine or_congr ?_ ?_
  · constructor
    · rintro ⟨⟨name, content⟩, hmem, rfl⟩
      exact ⟨name, content, mem_filesIn.mp (mem_sorted.mp hmem), rfl⟩
    · rintro ⟨name, content, hmem, rfl⟩
      exact ⟨(name, content), mem_sorted.mpr (mem_filesIn.mpr hmem), rfl⟩
  · constructor
    · rintro ⟨⟨name, visits⟩, hmem, hvisit⟩
      obtain ⟨tree, htree, rfl⟩ := mem_walks.mp (mem_sorted.mp hmem)
      cases hskip : skip (names ++ [name]) with
      | true => simp [hskip] at hvisit
      | false => exact ⟨name, tree, htree, hskip, by simpa [hskip] using hvisit⟩
    · rintro ⟨name, tree, htree, hskip, hvisit⟩
      refine ⟨(name, _), mem_sorted.mpr (mem_walks.mpr ⟨tree, htree, rfl⟩), ?_⟩
      simpa [hskip] using hvisit

theorem Reaches.mem_walk {skip : List FileName → Bool} {names : List FileName}
    {tree : FileTree α} {visit : Visit α} (h : Reaches skip names tree visit) :
    visit ∈ walk skip names tree := by
  induction h with
  | file hmem => exact mem_walk_directory.mpr (.inl ⟨_, _, hmem, rfl⟩)
  | unreadable => simp [walk]
  | deeper hmem hskip _ ih => exact mem_walk_directory.mpr (.inr ⟨_, _, hmem, hskip, ih⟩)

theorem reaches_of_mem_walk {skip : List FileName → Bool} {visit : Visit α} :
    ∀ {names : List FileName} {tree : FileTree α}, visit ∈ walk skip names tree →
      Reaches skip names tree visit
  | _, .file _, h => by simp [walk] at h
  | _, .link, h => by simp [walk] at h
  | _, .unreadable message, h => by
      obtain rfl : visit = .failed message := by simpa [walk] using h
      exact .unreadable
  | _, .directory entries, h => by
      rcases mem_walk_directory.mp h with ⟨name, content, hmem, rfl⟩ | ⟨name, tree, hmem, hskip, h⟩
      · exact .file hmem
      · exact .deeper hmem hskip (reaches_of_mem_walk h)
termination_by _ tree => sizeOf tree
decreasing_by
  have hlt := List.sizeOf_lt_of_mem hmem
  simp only [Prod.mk.sizeOf_spec, FileTree.directory.sizeOf_spec] at hlt ⊢
  omega

theorem mem_walk_iff {skip : List FileName → Bool} {names : List FileName}
    {tree : FileTree α} {visit : Visit α} :
    visit ∈ walk skip names tree ↔ Reaches skip names tree visit :=
  ⟨reaches_of_mem_walk, Reaches.mem_walk⟩

end FileTree

import LighttpdFuzz.BuildVerdict
import LighttpdFuzz.FileTree

/-!
# Discovery of the artifacts

`discover` walks the configured directories and takes in what looks like
an object, an archive or a linked file; the same file may be found under
several names, and is kept under its resolved path. `discover_eq` says
what comes out in one line: what each file yields, the last one winning,
and what each file, directory and root complains about.

With it the verdict of the checker is about the files on disk
(`checked_build`): status 0 means that every root that is not excluded
could be searched completely and has artifacts, and that each of them
was inspected and meets its checks.
-/

namespace LighttpdFuzz

open PosixPath

/-! ## Files -/

/-- What the calls on a path give: is it a regular file, its first 18
bytes, and where it leads. -/
structure FileView where
  isRegular : Except Text Bool
  header : Except Text Bytes
  resolved : Except Text Resolved

/-- A path as it is spelled, and without `.` and `..`. -/
structure FoundPath where
  text : Text
  normal : Resolved
  name : Text

/-- `Path(directory) / name` -/
def FoundPath.child (path : FoundPath) (name : FileName) : FoundPath where
  text := if path.text.getLast? = some '/' then path.text ++ name.text
    else path.text ++ '/' :: name.text
  normal := path.normal.child name
  name := name.text

def FoundPath.below (path : FoundPath) (names : List FileName) : FoundPath :=
  names.foldl FoundPath.child path

inductive SearchPlace where
  | missing
  | file (view : FileView)
  | directory (entries : List (FileName × FileTree FileView))
  | unreadable (message : Text)

/-- What is at a configured path. -/
structure SearchRoot where
  path : FoundPath
  place : SearchPlace

inductive SearchKind where
  | object | binary
  deriving DecidableEq, Repr

def elfMagic : Bytes := 0x7f :: Bytes.ascii "ELF"

/-- `elf_type` -/
def elfType (header : Bytes) : Option Nat :=
  if header.take 4 = elfMagic ∧ header.length = 18 then
    let encoding := header.getD 5 0
    if encoding = 1 then some (Bytes.intFromBig (Bytes.slice header 16 18).reverse)
    else if encoding = 2 then some (Bytes.intFromBig (Bytes.slice header 16 18))
    else none
  else none

def archiveMagic : List Bytes := [Bytes.ascii "!<arch>\n", Bytes.ascii "!<thin>\n"]

def bitcodeMagic : List Bytes := [[0x42, 0x43, 0xc0, 0xde], [0xde, 0xc0, 0x17, 0x0b]]

def objectSuffixes : List Text :=
  [".o".toList, ".obj".toList, ".a".toList, ".rlib".toList, ".bc".toList]

def archiveSuffixes : List Text := [".a".toList, ".rlib".toList]

/-- `header.startswith(...)` -/
def hasMagic (magic : List Bytes) (header : Bytes) : Bool :=
  magic.any fun m => decide (m <+: header)

/-- `artifact_kind` -/
def artifactKind (kind : SearchKind) (name : Text) (header : Bytes) : Option ArtifactKind :=
  match kind with
  | .object =>
      if hasMagic archiveMagic header then some .archive
      else if elfType header = some 1 ∨ hasMagic bitcodeMagic header then some .object
      else if objectSuffixes.contains (suffixOf name) then
        some (if archiveSuffixes.contains (suffixOf name) then .archive else .object)
      else none
  | .binary => if elfType header = some 2 ∨ elfType header = some 3 then some .binary else none

/-- The body of `add`, for a file that is not excluded; an error is a
message about the path. -/
def examine (kind : SearchKind) (explicit : Bool) (name : Text) (view : FileView) :
    Except Text (Option (Resolved × ArtifactKind)) :=
  match view.isRegular with
  | .error message => .error message
  | .ok false => if explicit then .error "expected a regular file".toList else .ok none
  | .ok true =>
      match view.header with
      | .error message => .error message
      | .ok header =>
          match artifactKind kind name header with
          | none =>
              if kind = .binary ∧ explicit then
                .error "expected an ELF executable or shared library".toList
              else .ok none
          | some artifact =>
              match view.resolved with
              | .error message => .error message
              | .ok path => .ok (some (path, artifact))

/-! ## Discovery -/

structure Discovery where
  artifacts : AssocMap Resolved ArtifactKind
  errors : List Text

def Discovery.fail (d : Discovery) (message : Text) : Discovery :=
  { d with errors := d.errors ++ [message] }

section Discover

variable (fnmatchcase : Text → Text → Bool) (excludes : List Text) (base : Resolved)

/-- `excluded(path)` -/
def excluded (path : FoundPath) : Bool :=
  excludes.any fun pattern =>
    fnmatchcase (relative base path.normal) pattern || fnmatchcase path.name pattern

/-- `add(path, kind, explicit)`, and whether it returns `True`. -/
def add (kind : SearchKind) (explicit : Bool) (path : FoundPath) (view : FileView)
    (d : Discovery) : Discovery × Bool :=
  if excluded fnmatchcase excludes base path then (d, false)
  else
    match examine kind explicit path.name view with
    | .error message => (d.fail (path.text ++ ": ".toList ++ message), false)
    | .ok none => (d, false)
    | .ok (some (resolved, artifact)) =>
        ({ d with artifacts := d.artifacts.set resolved artifact }, true)

/-- What `os.walk` leaves out below `root`. -/
def skipped (root : FoundPath) (names : List FileName) : Bool :=
  excluded fnmatchcase excludes base (root.below names)

/-- What the walk comes to, with the number of artifacts found. -/
def addVisit (kind : SearchKind) (root : FoundPath) (acc : Discovery × Nat) :
    FileTree.Visit FileView → Discovery × Nat
  | .failed message => (acc.1.fail message, acc.2)
  | .file names view =>
      let added := add fnmatchcase excludes base kind false (root.below names) view acc.1
      (added.1, acc.2 + added.2.toNat)

def missingText : SearchKind → Text
  | .object => ": missing or not a directory".toList
  | .binary => ": missing or not a file/directory".toList

/-- The body of the loop over the roots, up to the count. -/
def searchPlace (kind : SearchKind) (root : SearchRoot) (d : Discovery) : Discovery × Nat :=
  match root.place with
  | .missing => (d.fail (root.path.text ++ missingText kind), 0)
  | .file view =>
      match kind with
      | .object => (d.fail (root.path.text ++ missingText kind), 0)
      | .binary =>
          let added := add fnmatchcase excludes base kind true root.path view d
          (added.1, added.2.toNat)
  | .unreadable message => (d.fail message, 0)
  | .directory entries =>
      (FileTree.walk (skipped fnmatchcase excludes base root.path) []
        (.directory entries)).foldl (addVisit fnmatchcase excludes base kind root.path) (d, 0)

/-- The body of the loop over the roots. -/
def searchRoot (d : Discovery) (search : SearchKind × SearchRoot) : Discovery :=
  if excluded fnmatchcase excludes base search.2.path then d
  else
    let searched := searchPlace fnmatchcase excludes base search.1 search.2 d
    if searched.2 = 0 ∧ searched.1.errors.length = d.errors.length then
      searched.1.fail (search.2.path.text ++ ": no matching artifacts found".toList)
    else searched.1

/-- The roots, in the order in which they are searched. -/
def searches (objects binaries : List SearchRoot) : List (SearchKind × SearchRoot) :=
  objects.map (Prod.mk .object) ++ binaries.map (Prod.mk .binary)

/-- `sorted(artifacts.items())` -/
def sortedArtifacts (artifacts : AssocMap Resolved ArtifactKind) :
    AssocMap Resolved ArtifactKind where
  entries := artifacts.entries.insertionSort fun a b => a.1.parts ≤ b.1.parts
  nodup := ((List.perm_insertionSort _ _).map Prod.fst).nodup_iff.mpr artifacts.nodup

/-- `discover(objects, binaries, excludes, base)` -/
def discover (objects binaries : List SearchRoot) : Discovery :=
  let d := (searches objects binaries).foldl (searchRoot fnmatchcase excludes base) ⟨.empty, []⟩
  let d := if d.artifacts.entries = [] then d.fail "no matching artifacts found".toList else d
  { d with artifacts := sortedArtifacts d.artifacts }

end Discover

/-! ## Findings -/

/-- What a part of the search adds. -/
structure Finding where
  artifacts : List (Resolved × ArtifactKind)
  errors : List Text

namespace Finding

def nothing : Finding := ⟨[], []⟩

def complaint (message : Text) : Finding := ⟨[], [message]⟩

def concat (findings : List Finding) : Finding :=
  ⟨findings.flatMap artifacts, findings.flatMap errors⟩

theorem concat_cons (finding : Finding) (findings : List Finding) :
    concat (finding :: findings) = ⟨finding.artifacts ++ (concat findings).artifacts,
      finding.errors ++ (concat findings).errors⟩ := rfl

end Finding

def Discovery.take (d : Discovery) (finding : Finding) : Discovery where
  artifacts := .setAll Prod.fst Prod.snd d.artifacts finding.artifacts
  errors := d.errors ++ finding.errors

theorem Discovery.take_nothing (d : Discovery) : d.take .nothing = d := by
  simp [take, Finding.nothing, AssocMap.setAll]

theorem Discovery.take_take (d : Discovery) (f g : Finding) :
    (d.take f).take g = d.take ⟨f.artifacts ++ g.artifacts, f.errors ++ g.errors⟩ := by
  simp [take, AssocMap.setAll]

section Findings

variable (fnmatchcase : Text → Text → Bool) (excludes : List Text) (base : Resolved)

def fileFinding (kind : SearchKind) (explicit : Bool) (path : FoundPath) (view : FileView) :
    Finding :=
  if excluded fnmatchcase excludes base path then .nothing
  else
    match examine kind explicit path.name view with
    | .error message => .complaint (path.text ++ ": ".toList ++ message)
    | .ok none => .nothing
    | .ok (some artifact) => ⟨[artifact], []⟩

def visitFinding (kind : SearchKind) (root : FoundPath) : FileTree.Visit FileView → Finding
  | .failed message => .complaint message
  | .file names view => fileFinding fnmatchcase excludes base kind false (root.below names) view

def placeFinding (kind : SearchKind) (root : SearchRoot) : Finding :=
  match root.place with
  | .missing => .complaint (root.path.text ++ missingText kind)
  | .file view =>
      match kind with
      | .object => .complaint (root.path.text ++ missingText kind)
      | .binary => fileFinding fnmatchcase excludes base kind true root.path view
  | .unreadable message => .complaint message
  | .directory entries =>
      .concat ((FileTree.walk (skipped fnmatchcase excludes base root.path) []
        (.directory entries)).map (visitFinding fnmatchcase excludes base kind root.path))

def rootFinding (search : SearchKind × SearchRoot) : Finding :=
  if excluded fnmatchcase excludes base search.2.path then .nothing
  else
    let finding := placeFinding fnmatchcase excludes base search.1 search.2
    if finding.artifacts = [] ∧ finding.errors = [] then
      .complaint (search.2.path.text ++ ": no matching artifacts found".toList)
    else finding

variable {fnmatchcase excludes base} {kind : SearchKind}

theorem add_eq (explicit : Bool) (path : FoundPath) (view : FileView) (d : Discovery) :
    add fnmatchcase excludes base kind explicit path view d
      = (d.take (fileFinding fnmatchcase excludes base kind explicit path view),
        !(fileFinding fnmatchcase excludes base kind explicit path view).artifacts.isEmpty) := by
  unfold add fileFinding
  split
  · rw [Discovery.take_nothing]
    rfl
  · cases examine kind explicit path.name view with
    | error message => rfl
    | ok found =>
        cases found with
        | none =>
            simp only [Discovery.take_nothing]
            rfl
        | some artifact => simp [Discovery.take, AssocMap.setAll]

theorem addVisit_eq (root : FoundPath) (acc : Discovery × Nat)
    (visit : FileTree.Visit FileView) :
    addVisit fnmatchcase excludes base kind root acc visit
      = (acc.1.take (visitFinding fnmatchcase excludes base kind root visit),
        acc.2 + (visitFinding fnmatchcase excludes base kind root visit).artifacts.length) := by
  cases visit with
  | failed message => rfl
  | file names view =>
      rw [addVisit, add_eq, visitFinding]
      unfold fileFinding
      split
      · rfl
      · split <;> rfl

theorem foldl_addVisit (root : FoundPath) (visits : List (FileTree.Visit FileView)) :
    ∀ acc : Discovery × Nat,
      visits.foldl (addVisit fnmatchcase excludes base kind root) acc
        = (acc.1.take (.concat (visits.map (visitFinding fnmatchcase excludes base kind root))),
          acc.2 + (Finding.concat (visits.map
            (visitFinding fnmatchcase excludes base kind root))).artifacts.length) := by
  induction visits with
  | nil =>
      intro acc
      exact Prod.ext (Discovery.take_nothing acc.1).symm rfl
  | cons visit visits ih =>
      intro acc
      rw [List.foldl_cons, ih, addVisit_eq, Discovery.take_take, List.map_cons,
        Finding.concat_cons, List.length_append, Nat.add_assoc]

theorem searchPlace_eq (root : SearchRoot) (d : Discovery) :
    searchPlace fnmatchcase excludes base kind root d
      = (d.take (placeFinding fnmatchcase excludes base kind root),
        (placeFinding fnmatchcase excludes base kind root).artifacts.length) := by
  unfold searchPlace placeFinding
  cases root.place with
  | missing => rfl
  | unreadable message => rfl
  | directory entries =>
      simp only [foldl_addVisit, Nat.zero_add]
  | file view =>
      cases kind with
      | object => rfl
      | binary =>
          simp only [add_eq]
          unfold fileFinding
          split
          · rfl
          · split <;> rfl

theorem searchRoot_eq (d : Discovery) (search : SearchKind × SearchRoot) :
    searchRoot fnmatchcase excludes base d search
      = d.take (rootFinding fnmatchcase excludes base search) := by
  unfold searchRoot rootFinding
  split
  · exact (Discovery.take_nothing d).symm
  · simp only [searchPlace_eq]
    generalize placeFinding fnmatchcase excludes base search.1 search.2 = finding
    have hiff : (finding.artifacts.length = 0
        ∧ (d.take finding).errors.length = d.errors.length)
        ↔ finding.artifacts = [] ∧ finding.errors = [] := by
      rw [Discovery.take, List.length_append, List.length_eq_zero_iff,
        Nat.add_eq_left, List.length_eq_zero_iff]
    simp only [hiff]
    split
    · next hnothing =>
        obtain ⟨hartifacts, herrors⟩ := hnothing
        have hfinding : finding = .nothing := by
          cases finding
          simp only at hartifacts herrors
          rw [hartifacts, herrors]
          rfl
        rw [hfinding, Discovery.take_nothing]
        rfl
    · rfl

theorem foldl_searchRoot (roots : List (SearchKind × SearchRoot)) : ∀ d : Discovery,
    roots.foldl (searchRoot fnmatchcase excludes base) d
      = d.take (.concat (roots.map (rootFinding fnmatchcase excludes base))) := by
  induction roots with
  | nil => exact fun d => (Discovery.take_nothing d).symm
  | cons root roots ih =>
      intro d
      rw [List.foldl_cons, ih, searchRoot_eq, Discovery.take_take, List.map_cons,
        Finding.concat_cons]

/-! ## What is found -/

variable (fnmatchcase excludes base)

/-- The search in a root comes to a file. -/
inductive Found (kind : SearchKind) (root : SearchRoot) : Bool → FoundPath → FileView → Prop
  | given {view : FileView} : kind = .binary → root.place = .file view →
      Found kind root true root.path view
  | below {entries : List (FileName × FileTree FileView)} {names : List FileName}
      {view : FileView} : root.place = .directory entries →
      FileTree.Reaches (skipped fnmatchcase excludes base root.path) [] (.directory entries)
        (.file names view) →
      Found kind root false (root.path.below names) view

/-- The search in a root comes to a file that is not excluded, and what is
learnt from it. -/
def Examined (kind : SearchKind) (root : SearchRoot)
    (result : Except Text (Option (Resolved × ArtifactKind))) : Prop :=
  ∃ explicit path view, Found fnmatchcase excludes base kind root explicit path view
    ∧ excluded fnmatchcase excludes base path = false
    ∧ examine kind explicit path.name view = result

/-- The search in a root was complete, and found something. -/
structure Searched (kind : SearchKind) (root : SearchRoot) : Prop where
  there : (∃ entries, root.place = .directory entries)
    ∨ kind = .binary ∧ ∃ view, root.place = .file view
  listed : ∀ entries message, root.place = .directory entries →
    ¬ FileTree.Reaches (skipped fnmatchcase excludes base root.path) [] (.directory entries)
      (.failed message)
  clear : ∀ message, ¬ Examined fnmatchcase excludes base kind root (.error message)
  matched : ∃ artifact, Examined fnmatchcase excludes base kind root (.ok (some artifact))

/-- One of the roots leads to an artifact. -/
def Leads (roots : List (SearchKind × SearchRoot)) (artifact : Resolved × ArtifactKind) : Prop :=
  ∃ search ∈ roots, excluded fnmatchcase excludes base search.2.path = false
    ∧ Examined fnmatchcase excludes base search.1 search.2 (.ok (some artifact))

variable {fnmatchcase excludes base}

theorem mem_fileFinding_artifacts {explicit : Bool} {path : FoundPath} {view : FileView}
    {artifact : Resolved × ArtifactKind} :
    artifact ∈ (fileFinding fnmatchcase excludes base kind explicit path view).artifacts
      ↔ excluded fnmatchcase excludes base path = false
        ∧ examine kind explicit path.name view = .ok (some artifact) := by
  unfold fileFinding
  cases hexcluded : excluded fnmatchcase excludes base path with
  | true => simp [Finding.nothing]
  | false =>
      cases examine kind explicit path.name view with
      | error message => simp [Finding.complaint]
      | ok found => cases found <;> simp [Finding.nothing, eq_comm]

theorem fileFinding_errors {explicit : Bool} {path : FoundPath} {view : FileView} :
    (fileFinding fnmatchcase excludes base kind explicit path view).errors = []
      ↔ (excluded fnmatchcase excludes base path = false →
        ∀ message, examine kind explicit path.name view ≠ .error message) := by
  unfold fileFinding
  cases hexcluded : excluded fnmatchcase excludes base path with
  | true => simp [Finding.nothing]
  | false =>
      cases examine kind explicit path.name view with
      | error message => simp [Finding.complaint]
      | ok found => cases found <;> simp [Finding.nothing]

section Places

variable {root : SearchRoot}

theorem examined_file {view : FileView} (hplace : root.place = .file view)
    {result : Except Text (Option (Resolved × ArtifactKind))} :
    Examined fnmatchcase excludes base kind root result
      ↔ kind = .binary ∧ excluded fnmatchcase excludes base root.path = false
        ∧ examine kind true root.path.name view = result := by
  constructor
  · rintro ⟨explicit, path, view', hfound, hexamined⟩
    cases hfound with
    | given hkind hplace' =>
        rw [hplace] at hplace'
        cases hplace'
        exact ⟨hkind, hexamined⟩
    | below hplace' _ =>
        rw [hplace] at hplace'
        cases hplace'
  · rintro ⟨hkind, hexamined⟩
    exact ⟨true, root.path, view, .given hkind hplace, hexamined⟩

theorem examined_directory {entries : List (FileName × FileTree FileView)}
    (hplace : root.place = .directory entries)
    {result : Except Text (Option (Resolved × ArtifactKind))} :
    Examined fnmatchcase excludes base kind root result
      ↔ ∃ names view, FileTree.Reaches (skipped fnmatchcase excludes base root.path) []
          (.directory entries) (.file names view)
        ∧ excluded fnmatchcase excludes base (root.path.below names) = false
        ∧ examine kind false (root.path.below names).name view = result := by
  constructor
  · rintro ⟨explicit, path, view, hfound, hexamined⟩
    cases hfound with
    | given _ hplace' =>
        rw [hplace] at hplace'
        cases hplace'
    | below hplace' hreaches =>
        rw [hplace] at hplace'
        cases hplace'
        exact ⟨_, view, hreaches, hexamined⟩
  · rintro ⟨names, view, hreaches, hexamined⟩
    exact ⟨false, _, view, .below hplace hreaches, hexamined⟩

/-- There is nothing to examine in a root that is not there. -/
theorem not_examined {result : Except Text (Option (Resolved × ArtifactKind))}
    (hfile : ∀ view, root.place ≠ .file view)
    (hdirectory : ∀ entries, root.place ≠ .directory entries) :
    ¬ Examined fnmatchcase excludes base kind root result := by
  rintro ⟨explicit, path, view, hfound, -⟩
  cases hfound with
  | given _ hplace => exact hfile view hplace
  | below hplace _ => exact hdirectory _ hplace

theorem mem_placeFinding_artifacts {artifact : Resolved × ArtifactKind} :
    artifact ∈ (placeFinding fnmatchcase excludes base kind root).artifacts
      ↔ Examined fnmatchcase excludes base kind root (.ok (some artifact)) := by
  unfold placeFinding
  cases hplace : root.place with
  | missing | unreadable =>
      refine iff_of_false List.not_mem_nil (not_examined ?_ ?_)
      · exact fun _ h => by cases hplace.symm.trans h
      · exact fun _ h => by cases hplace.symm.trans h
  | file view =>
      rw [examined_file hplace]
      cases kind with
      | object => simp [Finding.complaint]
      | binary => simp [mem_fileFinding_artifacts]
  | directory entries =>
      rw [examined_directory hplace]
      simp only [Finding.concat, List.mem_flatMap, List.mem_map]
      constructor
      · rintro ⟨_, ⟨visit, hvisit, rfl⟩, hmem⟩
        cases visit with
        | failed message => cases hmem
        | file names view =>
            exact ⟨names, view, FileTree.mem_walk_iff.mp hvisit,
              mem_fileFinding_artifacts.mp hmem⟩
      · rintro ⟨names, view, hreaches, hexamined⟩
        exact ⟨_, ⟨_, FileTree.mem_walk_iff.mpr hreaches, rfl⟩,
          mem_fileFinding_artifacts.mpr hexamined⟩

/-- A root that is there and complete complains about nothing. -/
theorem placeFinding_errors :
    (placeFinding fnmatchcase excludes base kind root).errors = []
      ↔ ((∃ entries, root.place = .directory entries)
          ∨ kind = .binary ∧ ∃ view, root.place = .file view)
        ∧ (∀ entries message, root.place = .directory entries →
          ¬ FileTree.Reaches (skipped fnmatchcase excludes base root.path) []
            (.directory entries) (.failed message))
        ∧ ∀ message, ¬ Examined fnmatchcase excludes base kind root (.error message) := by
  unfold placeFinding
  cases hplace : root.place with
  | missing | unreadable => simp [Finding.complaint]
  | file view =>
      simp only [examined_file hplace]
      cases kind with
      | object => simp [Finding.complaint]
      | binary =>
          simp only [fileFinding_errors]
          constructor
          · intro hclear
            refine ⟨.inr ⟨trivial, view, rfl⟩, fun _ _ h => (by cases h), ?_⟩
            rintro message ⟨-, hnot, hexamine⟩
            exact hclear hnot message hexamine
          · rintro ⟨-, -, hclear⟩ hnot message hexamine
            exact hclear message ⟨trivial, hnot, hexamine⟩
  | directory entries =>
      simp only [examined_directory hplace, Finding.concat, List.flatMap_eq_nil_iff, List.mem_map,
        forall_exists_index, and_imp, forall_apply_eq_imp_iff₂]
      constructor
      · intro hclear
        refine ⟨.inl ⟨entries, rfl⟩, ?_, ?_⟩
        · intro entries' message heq hreaches
          cases heq
          have herrors := hclear _ (FileTree.mem_walk_iff.mpr hreaches)
          cases herrors
        · rintro message ⟨names, view, hreaches, hnot, hexamine⟩
          have herrors := hclear _ (FileTree.mem_walk_iff.mpr hreaches)
          exact fileFinding_errors.mp herrors hnot message hexamine
      · rintro ⟨-, hlisted, hclear⟩ visit hvisit
        have hreaches := FileTree.mem_walk_iff.mp hvisit
        cases visit with
        | failed message => exact absurd hreaches (hlisted entries message rfl)
        | file names view =>
            exact fileFinding_errors.mpr fun hnot message hexamine =>
              hclear message ⟨names, view, hreaches, hnot, hexamine⟩

end Places

theorem mem_rootFinding_artifacts {search : SearchKind × SearchRoot}
    {artifact : Resolved × ArtifactKind} :
    artifact ∈ (rootFinding fnmatchcase excludes base search).artifacts
      ↔ excluded fnmatchcase excludes base search.2.path = false
        ∧ Examined fnmatchcase excludes base search.1 search.2 (.ok (some artifact)) := by
  rw [← mem_placeFinding_artifacts, rootFinding]
  cases excluded fnmatchcase excludes base search.2.path with
  | true => simp [Finding.nothing]
  | false =>
      simp only [Bool.false_eq_true, if_false, true_and]
      split
      · next hnothing => simp [hnothing.1, Finding.complaint]
      · rfl

theorem rootFinding_errors {search : SearchKind × SearchRoot} :
    (rootFinding fnmatchcase excludes base search).errors = []
      ↔ (excluded fnmatchcase excludes base search.2.path = false →
        Searched fnmatchcase excludes base search.1 search.2) := by
  rw [rootFinding]
  cases excluded fnmatchcase excludes base search.2.path with
  | true => simp [Finding.nothing]
  | false =>
      simp only [Bool.false_eq_true, if_false, forall_const]
      have hmatched : (placeFinding fnmatchcase excludes base search.1 search.2).artifacts ≠ []
          ↔ ∃ artifact, Examined fnmatchcase excludes base search.1 search.2
            (.ok (some artifact)) := by
        simp only [← mem_placeFinding_artifacts]
        exact ⟨List.exists_mem_of_ne_nil _, fun ⟨_, hmem⟩ => List.ne_nil_of_mem hmem⟩
      split
      · next hnothing =>
          refine ⟨fun h => (by cases h), fun hsearched => ?_⟩
          exact absurd hnothing.1 (hmatched.mpr hsearched.matched)
      · next hsomething =>
          constructor
          · intro herrors
            obtain ⟨hthere, hlisted, hclear⟩ := placeFinding_errors.mp herrors
            exact ⟨hthere, hlisted, hclear, hmatched.mp fun h => hsomething ⟨h, herrors⟩⟩
          · intro hsearched
            exact placeFinding_errors.mpr ⟨hsearched.there, hsearched.listed, hsearched.clear⟩

end Findings

/-! ## The outcome of discovery -/

section Outcome

variable {fnmatchcase : Text → Text → Bool} {excludes : List Text} {base : Resolved}
  {objects binaries : List SearchRoot}

theorem discover_eq : discover fnmatchcase excludes base objects binaries =
    let found := Discovery.take ⟨.empty, []⟩
      (.concat ((searches objects binaries).map (rootFinding fnmatchcase excludes base)))
    { found with
      errors := found.errors ++
        if found.artifacts.entries = [] then ["no matching artifacts found".toList] else []
      artifacts := sortedArtifacts found.artifacts } := by
  unfold discover
  simp only [foldl_searchRoot]
  split
  · rfl
  · simp

theorem mem_sortedArtifacts {artifacts : AssocMap Resolved ArtifactKind}
    {artifact : Resolved × ArtifactKind} :
    artifact ∈ (sortedArtifacts artifacts).entries ↔ artifact ∈ artifacts.entries :=
  (List.perm_insertionSort _ _).mem_iff

theorem mem_concat_rootFinding {artifact : Resolved × ArtifactKind} :
    artifact ∈ (Finding.concat ((searches objects binaries).map
        (rootFinding fnmatchcase excludes base))).artifacts
      ↔ Leads fnmatchcase excludes base (searches objects binaries) artifact := by
  simp only [Finding.concat, List.mem_flatMap, List.mem_map]
  constructor
  · rintro ⟨_, ⟨search, hsearch, rfl⟩, hmem⟩
    exact ⟨search, hsearch, mem_rootFinding_artifacts.mp hmem⟩
  · rintro ⟨search, hsearch, hexamined⟩
    exact ⟨_, ⟨search, hsearch, rfl⟩, mem_rootFinding_artifacts.mpr hexamined⟩

/-- What is kept, some root leads to. -/
theorem leads_of_mem {artifact : Resolved × ArtifactKind}
    (h : artifact ∈ (discover fnmatchcase excludes base objects binaries).artifacts.entries) :
    Leads fnmatchcase excludes base (searches objects binaries) artifact := by
  rw [discover_eq] at h
  have hget := AssocMap.get_eq_some_iff.mpr (mem_sortedArtifacts.mp h)
  rcases AssocMap.get_setAll hget with ⟨found, hfound, hpath, hkind⟩ | hempty
  · have heq : found = artifact := Prod.ext hpath hkind
    exact mem_concat_rootFinding.mp (heq ▸ hfound)
  · cases hempty

/-- What a root leads to is kept, as what was found last. -/
theorem mem_of_leads {path : Resolved} {kind : ArtifactKind}
    (h : Leads fnmatchcase excludes base (searches objects binaries) (path, kind)) :
    ∃ kind', (path, kind')
      ∈ (discover fnmatchcase excludes base objects binaries).artifacts.entries := by
  have hmem := mem_concat_rootFinding.mpr h
  have hsome := @AssocMap.get_setAll_isSome _ _ _ _ Prod.fst Prod.snd path _ .empty
    (.inl ⟨_, hmem, rfl⟩)
  obtain ⟨kind', hget⟩ := Option.isSome_iff_exists.mp hsome
  refine ⟨kind', ?_⟩
  rw [discover_eq]
  exact mem_sortedArtifacts.mpr (AssocMap.get_eq_some_iff.mp hget)

/-- All roots that are not excluded were searched, and there are some. -/
def Complete (fnmatchcase : Text → Text → Bool) (excludes : List Text) (base : Resolved)
    (roots : List (SearchKind × SearchRoot)) : Prop :=
  (∃ search ∈ roots, excluded fnmatchcase excludes base search.2.path = false)
    ∧ ∀ search ∈ roots, excluded fnmatchcase excludes base search.2.path = false →
      Searched fnmatchcase excludes base search.1 search.2

theorem discover_errors : (discover fnmatchcase excludes base objects binaries).errors = []
    ↔ Complete fnmatchcase excludes base (searches objects binaries) := by
  have hempty : (Discovery.take ⟨.empty, []⟩ (.concat ((searches objects binaries).map
        (rootFinding fnmatchcase excludes base)))).artifacts.entries = []
      ↔ ∀ artifact, ¬ Leads fnmatchcase excludes base (searches objects binaries) artifact := by
    constructor
    · intro hnil artifact hleads
      obtain ⟨kind, hmem⟩ := mem_of_leads hleads
      rw [discover_eq] at hmem
      have hmem' := mem_sortedArtifacts.mp hmem
      rw [hnil] at hmem'
      cases hmem'
    · intro hnone
      rw [List.eq_nil_iff_forall_not_mem]
      intro artifact hmem
      refine hnone artifact (leads_of_mem ?_)
      rw [discover_eq]
      exact mem_sortedArtifacts.mpr hmem
  have herrors : (Discovery.take ⟨.empty, []⟩ (.concat ((searches objects binaries).map
        (rootFinding fnmatchcase excludes base)))).errors = []
      ↔ ∀ search ∈ searches objects binaries,
        excluded fnmatchcase excludes base search.2.path = false →
          Searched fnmatchcase excludes base search.1 search.2 := by
    simp only [Discovery.take, List.nil_append, Finding.concat, List.flatMap_eq_nil_iff,
      List.mem_map, forall_exists_index, and_imp, forall_apply_eq_imp_iff₂, rootFinding_errors]
  rw [discover_eq]
  simp only [List.append_eq_nil_iff, ite_eq_right_iff, List.cons_ne_nil, imp_false, herrors,
    hempty]
  constructor
  · rintro ⟨hsearched, hsome⟩
    obtain ⟨artifact, search, hsearch, hnot, -⟩ := not_forall_not.mp hsome
    exact ⟨⟨search, hsearch, hnot⟩, hsearched⟩
  · rintro ⟨⟨search, hsearch, hnot⟩, hsearched⟩
    obtain ⟨artifact, hexamined⟩ := (hsearched search hsearch hnot).matched
    exact ⟨hsearched, fun hnone => hnone artifact ⟨search, hsearch, hnot, hexamined⟩⟩

/-- `discover` returns what the roots lead to, each file once, and
complains exactly if the search was not complete. -/
theorem discover_spec :
    (∀ path kind, (path, kind)
        ∈ (discover fnmatchcase excludes base objects binaries).artifacts.entries →
      Leads fnmatchcase excludes base (searches objects binaries) (path, kind))
    ∧ (∀ path, path ∈ (discover fnmatchcase excludes base objects binaries).artifacts.keys
      ↔ ∃ kind, Leads fnmatchcase excludes base (searches objects binaries) (path, kind))
    ∧ ((discover fnmatchcase excludes base objects binaries).errors = []
      ↔ Complete fnmatchcase excludes base (searches objects binaries)) := by
  refine ⟨fun path kind => leads_of_mem, fun path => ⟨fun hkey => ?_, fun hleads => ?_⟩,
    discover_errors⟩
  · obtain ⟨⟨_, kind⟩, hmem, rfl⟩ := List.mem_map.mp hkey
    exact ⟨kind, leads_of_mem hmem⟩
  · obtain ⟨kind, hleads⟩ := hleads
    obtain ⟨kind', hmem⟩ := mem_of_leads hleads
    exact List.mem_map.mpr ⟨_, hmem, rfl⟩

/-! ## The verdict on the files -/

variable {world : BuildWorld} {config : IniFile} {cfg : BuildConfig} {roots : Text → SearchRoot}

/-- The checker, where `roots` says what is at each configured path. -/
def BuildWorld.searching (world : BuildWorld) (fnmatchcase : Text → Text → Bool)
    (roots : Text → SearchRoot) : BuildWorld :=
  { world with
    artifacts := fun cfg => (discover fnmatchcase cfg.excludes world.base
      (cfg.objects.map roots) (cfg.binaries.map roots)).artifacts
    discoveryErrors := fun cfg => (discover fnmatchcase cfg.excludes world.base
      (cfg.objects.map roots) (cfg.binaries.map roots)).errors }

/-- The inspection of an artifact gives units without errors, and none of
them breaks a check. -/
def Passes (fnmatchcase : Text → Text → Bool) (world : BuildWorld) (config : IniFile)
    (path : Resolved) (kind : ArtifactKind) : Prop :=
  ∃ units, world.inspect path kind = .ok units ∧ ∀ unit ∈ units, unit.isError = false
    ∧ ∀ check, breaks fnmatchcase config (relative world.base path) unit check = false

theorem passes_iff {path : Resolved} {kind : ArtifactKind} :
    Passes fnmatchcase world config path kind ↔
      (∃ units, world.inspect path kind = .ok units ∧ ∀ unit ∈ units, unit.isError = false)
      ∧ ∀ units, world.inspect path kind = .ok units → ∀ unit ∈ units, ∀ evidence,
        unit.outcome = .evidence evidence → ∀ check,
          policyFailed (givenMode fnmatchcase config (relative world.base path) unit.member check)
            (detect check evidence).1 = false := by
  constructor
  · rintro ⟨units, hunits, hpasses⟩
    refine ⟨⟨units, hunits, fun unit hunit => (hpasses unit hunit).1⟩, ?_⟩
    intro units' hunits' unit hunit evidence hevidence check
    rw [hunits] at hunits'
    cases hunits'
    have hbreaks := (hpasses unit hunit).2 check
    rw [breaks, hevidence] at hbreaks
    exact hbreaks
  · rintro ⟨⟨units, hunits, hclean⟩, hconforms⟩
    refine ⟨units, hunits, fun unit hunit => ⟨hclean unit hunit, fun check => ?_⟩⟩
    unfold breaks
    split
    · next evidence hevidence => exact hconforms units hunits unit hunit evidence hevidence check
    · rfl

/-- The checker returns 0 exactly if all roots that are not excluded could
be searched, and every file that some root leads to has been inspected and
passes. -/
theorem checked_build (hconfig : world.config = .ok config)
    (hload : loadConfig world.printable config = .ok cfg)
    (hreadelf : world.hasReadelf = true) (houtput : checkOutput (world.output cfg) = .ok ())
    (hwrite : ∀ report, world.write report = .ok ()) :
    (world.searching fnmatchcase roots).main fnmatchcase = 0 ↔
      Complete fnmatchcase cfg.excludes world.base
          (searches (cfg.objects.map roots) (cfg.binaries.map roots))
        ∧ ∀ path, (∃ kind, Leads fnmatchcase cfg.excludes world.base
            (searches (cfg.objects.map roots) (cfg.binaries.map roots)) (path, kind)) →
          ∃ kind, (path, kind)
              ∈ ((world.searching fnmatchcase roots).artifacts cfg).entries
            ∧ Passes fnmatchcase world config path kind := by
  have hmain : (world.searching fnmatchcase roots).main fnmatchcase
      = exitStatus ((world.searching fnmatchcase roots).finalState fnmatchcase cfg) := by
    simp only [BuildWorld.main, BuildWorld.searching, hconfig, hload, hreadelf, houtput, hwrite,
      Bool.not_true, Bool.false_eq_true, if_false]
  have hpass := (exitStatus_iff ((world.searching fnmatchcase roots).finalState fnmatchcase cfg)).1
  rw [errors_eq_nil_iff, failures_eq_zero_iff hload, BuildWorld.Clean, BuildWorld.Conforms] at hpass
  rw [hmain, hpass, and_assoc]
  refine and_congr discover_errors ?_
  constructor
  · rintro ⟨hclean, hconforms⟩ path ⟨kind, hleads⟩
    obtain ⟨kind', hmem⟩ := mem_of_leads hleads
    exact ⟨kind', hmem, passes_iff.mpr ⟨hclean _ hmem, hconforms _ hmem⟩⟩
  · intro hpasses
    have hall : ∀ artifact ∈ ((world.searching fnmatchcase roots).artifacts cfg).entries,
        Passes fnmatchcase world config artifact.1 artifact.2 := by
      intro artifact hmem
      obtain ⟨kind, hkept, hpass⟩ := hpasses artifact.1 ⟨artifact.2, leads_of_mem hmem⟩
      have hkind := (AssocMap.get_eq_some_iff.mpr hkept).symm.trans
        (AssocMap.get_eq_some_iff.mpr hmem)
      rwa [Option.some.inj hkind] at hpass
    exact ⟨fun artifact hmem => (passes_iff.mp (hall artifact hmem)).1,
      fun artifact hmem => (passes_iff.mp (hall artifact hmem)).2⟩

end Outcome

/-! ## One object directory -/

theorem plain_demo : ∀ part ∈ ["a.o".toList, "b.o".toList, "sub".toList, "skip.o".toList],
    part ≠ [] ∧ '/' ∉ part ∧ part ≠ PosixPath.dot ∧ part ≠ PosixPath.dotdot := by decide

def demoFile (path : Resolved) : FileTree FileView := .file ⟨.ok true, .ok [], .ok path⟩

/-- An object, another one in a directory, and a file that is excluded and
could not be looked at. -/
def demoRoot : SearchRoot where
  path := ⟨"/w/out".toList, ⟨["w".toList, "out".toList], by decide⟩, "out".toList⟩
  place := .directory [
    (⟨"a.o".toList, plain_demo _ (by simp)⟩, demoFile demoObject),
    (⟨"skip.o".toList, plain_demo _ (by simp)⟩,
      .file ⟨.error "Permission denied".toList, .ok [], .ok demoObject⟩),
    (⟨"sub".toList, plain_demo _ (by simp)⟩,
      .directory [(⟨"b.o".toList, plain_demo _ (by simp)⟩, demoFile demoNested)])]

theorem discover_demo : (discover leadingStar demoLoaded.excludes ⟨["w".toList], by decide⟩
      (demoLoaded.objects.map fun _ => demoRoot) (demoLoaded.binaries.map fun _ => demoRoot)).errors
        = []
    ∧ (discover leadingStar demoLoaded.excludes ⟨["w".toList], by decide⟩
      (demoLoaded.objects.map fun _ => demoRoot)
      (demoLoaded.binaries.map fun _ => demoRoot)).artifacts.entries
        = [(demoObject, .object), (demoNested, .object)] := by
  decide +kernel

theorem checked_build_demo : ((demoWorld ["__asan_init".toList]).searching leadingStar fun _ =>
    demoRoot).main leadingStar = 0 := by
  refine (checked_build rfl loadConfig_demo rfl rfl fun _ => rfl).mpr
    ⟨discover_errors.mp discover_demo.1, ?_⟩
  rintro path ⟨kind, hleads⟩
  obtain ⟨kind', hmem⟩ := mem_of_leads hleads
  refine ⟨kind', hmem, _, rfl, fun unit hunit => ?_⟩
  obtain rfl := List.mem_singleton.mp hunit
  have hmem : (path, kind') ∈ [(demoObject, .object), (demoNested, .object)] :=
    discover_demo.2 ▸ hmem
  rcases List.mem_cons.mp hmem with heq | hmem
  · obtain ⟨rfl, -⟩ := Prod.mk.inj heq
    refine ⟨rfl, fun check => ?_⟩
    cases check <;> rfl
  · obtain ⟨rfl, -⟩ := Prod.mk.inj (List.mem_singleton.mp hmem)
    refine ⟨rfl, fun check => ?_⟩
    cases check <;> rfl

end LighttpdFuzz

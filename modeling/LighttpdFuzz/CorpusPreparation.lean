import LighttpdFuzz.CorpusFiles

/-!
# Preparing a corpus twice

A full run rewrites every unit once, whatever the order in which the tree
is walked and however often a path is met: a rewritten unit is a fixed
point of `normalize`. The seeds come after, under names of their own, and
a second run finds nothing to do (`corpus_preparation`).

All of this presumes that the temporary file of a replacement is new. A
file of the corpus that has its name is overwritten and then moved away
(`temporary_file_lost`).
-/

namespace LighttpdFuzz

variable {sha1 : Bytes → Bytes} {seeds : List Bytes} {writable : CorpusPath → Bool} {pid : Nat}
  {found : List CorpusPath}
  {original corpus corpus' : Corpus} {report report' : CorpusReport} {path : CorpusPath}
  {data : Bytes}

/-! ## Names -/

/-- The first character of a name in hexadecimal is no dot. -/
theorem hexDigit_ne_dot : ∀ n < 16, hexDigit n ≠ '.' := by decide

theorem hexdigest_ne_dot (digest : Bytes) (t : Text) : hexdigest digest ≠ '.' :: t := by
  cases digest with
  | nil => nofun
  | cons b digest =>
      intro h
      have hb : b.toNat < 256 := b.toNat_lt
      exact hexDigit_ne_dot (b.toNat / 16) (by omega) (List.cons.inj h).1

theorem temporary_ne_self (path : CorpusPath) (pid : Nat) : path.temporary pid ≠ path := by
  intro h
  have hlength := congrArg (fun p => p.name.length) h
  simp only [CorpusPath.temporary, List.length_cons, List.length_append] at hlength
  omega

theorem temporary_ne_seedPath (path : CorpusPath) (pid : Nat) (seed : Bytes) :
    path.temporary pid ≠ seedPath sha1 seed := fun h =>
  hexdigest_ne_dot (sha1 seed) _ (congrArg CorpusPath.name h).symm

namespace Corpus

/-! ## Replacing one file -/

theorem put_self (corpus : Corpus) (path : CorpusPath) (data : Bytes) :
    corpus.put path data path = some (.file data) :=
  Function.update_self _ _ _

theorem put_of_ne (corpus : Corpus) (data : Bytes) {path path' : CorpusPath} (h : path' ≠ path) :
    corpus.put path data path' = corpus path' :=
  Function.update_of_ne h _ _

/-- A new temporary file leaves nothing behind. -/
theorem atomicWrite_of_new (htemporary : corpus (path.temporary pid) = none)
    (hpath : corpus path ≠ some .directory)
    (hwritable : writable (path.temporary pid) = true ∧ writable path = true) :
    corpus.atomicWrite writable pid path data = .ok (corpus.put path data) := by
  have hne := temporary_ne_self path pid
  have hwrite : corpus.writeBytes writable (path.temporary pid) data
      = .ok (corpus.put (path.temporary pid) data) := by
    unfold writeBytes
    rw [htemporary, if_neg nofun, hwritable.1]
    rfl
  have hreplace : (corpus.put (path.temporary pid) data).replace writable (path.temporary pid)
      path data = .ok (corpus.put path data) := by
    unfold replace
    rw [put_of_ne _ _ hne.symm, if_neg hpath, hwritable.2, Bool.not_true,
      if_neg Bool.false_ne_true]
    refine congrArg Except.ok (funext fun p => ?_)
    by_cases hp : p = path.temporary pid
    · rw [hp, Function.update_self, put_of_ne _ _ hne, htemporary]
    · rw [Function.update_of_ne hp]
      by_cases hp' : p = path
      · rw [hp', put_self, put_self]
      · rw [put_of_ne _ _ hp', put_of_ne _ _ hp', put_of_ne _ _ hp]
  unfold atomicWrite
  rw [hwrite]
  exact hreplace

/-- Where the temporary name is no file, a replacement either fails or
writes the file and nothing else. -/
theorem eq_put_of_atomicWrite (htemporary : ∀ d, corpus (path.temporary pid) ≠ some (.file d))
    (h : corpus.atomicWrite writable pid path data = .ok corpus') :
    corpus' = corpus.put path data := by
  have hnone : corpus (path.temporary pid) = none := by
    rcases hentry : corpus (path.temporary pid) with _ | ⟨⟨d⟩ | _⟩
    · rfl
    · exact absurd hentry (htemporary d)
    · unfold atomicWrite writeBytes at h
      rw [if_pos hentry] at h
      cases h
  have hput : (corpus.put (path.temporary pid) data) path = corpus path :=
    put_of_ne _ _ (temporary_ne_self path pid).symm
  have hnot : corpus (path.temporary pid) ≠ some .directory := by rw [hnone]; nofun
  -- the two ways to fail are the same for both paths
  rcases htemp : writable (path.temporary pid) with _ | _
  · unfold atomicWrite writeBytes at h
    rw [if_neg hnot, htemp] at h
    cases h
  have hreplace : (corpus.put (path.temporary pid) data).replace writable (path.temporary pid)
      path data = .ok corpus' := by
    unfold atomicWrite writeBytes at h
    rw [if_neg hnot, htemp] at h
    exact h
  rcases htarget : writable path with _ | _
  · unfold replace at hreplace
    rw [hput, htarget] at hreplace
    split at hreplace <;> cases hreplace
  have hpath : corpus path ≠ some .directory := by
    intro hdir
    unfold replace at hreplace
    rw [hput, if_pos hdir] at hreplace
    cases hreplace
  rw [atomicWrite_of_new hnone hpath ⟨htemp, htarget⟩] at h
  exact (Except.ok.inj h).symm

end Corpus

/-! ## The units -/

/-- Every file holds its original content or what `normalize` makes of
it. -/
def Rewrites (original corpus : Corpus) : Prop :=
  ∀ path, corpus path = original path ∨
    ∃ data, original path = some (.file data) ∧ corpus path = some (.file (normalize data))

/-- A unit that `normalize` changes. -/
def WritesUnit (corpus : Corpus) (path : CorpusPath) : Prop :=
  ∃ data, corpus path = some (.file data) ∧ normalize data ≠ data

/-- What is not at its fixed point is still as it was. -/
theorem Rewrites.original_of_ne (h : Rewrites original corpus)
    (hpath : corpus path = some (.file data)) (hne : normalize data ≠ data) :
    original path = some (.file data) := by
  rcases h path with heq | ⟨data', -, heq⟩
  · rw [← heq, hpath]
  · rw [hpath] at heq
    obtain rfl := Entry.file.inj (Option.some.inj heq)
    exact absurd (normalize_idempotent data') hne

theorem Rewrites.not_file (h : Rewrites original corpus)
    (hpath : ∀ d, original path ≠ some (.file d)) : corpus path = original path := by
  rcases h path with heq | ⟨data', hfile, -⟩
  · exact heq
  · exact absurd hfile (hpath data')

theorem Rewrites.put (h : Rewrites original corpus) (hpath : original path = some (.file data)) :
    Rewrites original (corpus.put path (normalize data)) := by
  intro path'
  rcases eq_or_ne path' path with rfl | hp
  · exact .inr ⟨data, hpath, Corpus.put_self _ _ _⟩
  · rw [Corpus.put_of_ne _ _ hp]
    exact h path'

/-- What is at its fixed point stays so. -/
theorem put_normalized {path' : CorpusPath}
    {data' : Bytes} (hpath : original path = some (.file data))
    (hpath' : original path' = some (.file data'))
    (hold : corpus path' = some (.file (normalize data'))) :
    corpus.put path (normalize data) path' = some (.file (normalize data')) := by
  rcases eq_or_ne path' path with rfl | hp
  · obtain rfl := Entry.file.inj (Option.some.inj (hpath'.symm.trans hpath))
    exact Corpus.put_self _ _ _
  · rw [Corpus.put_of_ne _ _ hp]
    exact hold

/-- A file at a fixed point is done. -/
theorem Rewrites.normal_of_fixed (h : Rewrites original corpus) {d : Bytes}
    (hfile : corpus path = some (.file d)) (hfixed : normalize d = d)
    (horiginal : original path = some (.file data)) :
    corpus path = some (.file (normalize data)) := by
  rcases h path with heq | ⟨data', hdata', heq⟩
  · obtain rfl := Entry.file.inj (Option.some.inj ((hfile.symm.trans heq).trans horiginal))
    rw [hfixed]
    exact hfile
  · obtain rfl := Entry.file.inj (Option.some.inj (hdata'.symm.trans horiginal))
    exact heq

theorem Rewrites.file_of_file (h : Rewrites original corpus)
    (horiginal : original path = some (.file data)) : ∃ d, corpus path = some (.file d) := by
  rcases h path with heq | ⟨data', -, heq⟩
  · exact ⟨data, heq.trans horiginal⟩
  · exact ⟨normalize data', heq⟩

/-- The temporary names of the paths that are written are no files. -/
def TemporariesFree (pid : Nat) (corpus : Corpus) (writes : CorpusPath → Prop) : Prop :=
  ∀ path, writes path → ∀ d, corpus (path.temporary pid) ≠ some (.file d)

/-- One pass over the tree. The induction is on the paths that are still
to come; `Rewrites` relates each state to the original one. -/
theorem normalizeFiles_ok (hfree : TemporariesFree pid original (WritesUnit original))
    (hrewrites : Rewrites original corpus)
    (h : normalizeFiles writable pid found corpus report = .ok (corpus', report')) :
    Rewrites original corpus' ∧ ∀ path data, original path = some (.file data) →
      (path ∈ found ∨ corpus path = some (.file (normalize data))) →
      corpus' path = some (.file (normalize data)) := by
  induction found generalizing corpus report with
  | nil =>
      cases h
      exact ⟨hrewrites, fun path data _ hdone => hdone.resolve_left List.not_mem_nil⟩
  | cons path found ih =>
      -- a path that needs no rewriting is done
      have hskip : ∀ {report''},
          normalizeFiles writable pid found corpus report'' = .ok (corpus', report') →
          (∀ data, original path = some (.file data) →
            corpus path = some (.file (normalize data))) →
          Rewrites original corpus' ∧ ∀ path' data, original path' = some (.file data) →
            (path' ∈ path :: found ∨ corpus path' = some (.file (normalize data))) →
            corpus' path' = some (.file (normalize data)) := by
        intro report'' hrest hpath
        obtain ⟨hrewrites', hdone⟩ := ih hrewrites hrest
        refine ⟨hrewrites', fun path' data horiginal hcases => hdone path' data horiginal ?_⟩
        rcases hcases with hmem | hnormal
        · rcases List.mem_cons.mp hmem with rfl | hmem
          · exact .inr (hpath data horiginal)
          · exact .inl hmem
        · exact .inr hnormal
      unfold normalizeFiles at h
      split at h
      case h_1 hempty =>
        exact hskip h fun data => hrewrites.normal_of_fixed hempty rfl
      case h_2 b rest hfile =>
        split at h
        case isTrue hne =>
          have horiginal := hrewrites.original_of_ne hfile hne
          have htemporary : ∀ d, corpus (path.temporary pid) ≠ some (.file d) := by
            have hnot := hfree path ⟨_, horiginal, hne⟩
            rw [hrewrites.not_file hnot]
            exact hnot
          split at h
          case h_1 => cases h
          case h_2 corpus₁ hwrite =>
            obtain rfl := Corpus.eq_put_of_atomicWrite htemporary hwrite
            obtain ⟨hrewrites', hdone⟩ := ih (hrewrites.put horiginal) h
            refine ⟨hrewrites', fun path' data hpath' hcases => hdone path' data hpath' ?_⟩
            rcases hcases with hmem | hnormal
            · rcases List.mem_cons.mp hmem with rfl | hmem
              · obtain rfl := Entry.file.inj (Option.some.inj (horiginal.symm.trans hpath'))
                exact .inr (Corpus.put_self _ _ _)
              · exact .inl hmem
            · exact .inr (put_normalized horiginal hpath' hnormal)
        case isFalse hfixed =>
          exact hskip h fun data => hrewrites.normal_of_fixed hfile (not_not.mp hfixed)
      case h_3 hother =>
        refine hskip h fun data horiginal => ?_
        obtain ⟨d, hfile⟩ := hrewrites.file_of_file horiginal
        cases hother.symm.trans hfile
      case h_4 hother =>
        refine hskip h fun data horiginal => ?_
        obtain ⟨d, hfile⟩ := hrewrites.file_of_file horiginal
        cases hother.symm.trans hfile

/-- The system lets the process write the paths and their temporary
files. -/
def Writable (writable : CorpusPath → Bool) (pid : Nat) (writes : CorpusPath → Prop) : Prop :=
  ∀ path, writes path → writable (path.temporary pid) = true ∧ writable path = true

/-- Without a directory under a temporary name the pass does not fail. -/
theorem normalizeFiles_total (hrewrites : Rewrites original corpus)
    (hwritable : Writable writable pid (WritesUnit original))
    (hnone : ∀ path, WritesUnit original path → original (path.temporary pid) = none) :
    ∃ result, normalizeFiles writable pid found corpus report = .ok result := by
  induction found generalizing corpus report with
  | nil => exact ⟨_, rfl⟩
  | cons path found ih =>
      unfold normalizeFiles
      split
      case h_1 => exact ih hrewrites
      case h_2 b rest hfile =>
        split
        case isTrue hne =>
          have horiginal := hrewrites.original_of_ne hfile hne
          have htemporary : corpus (path.temporary pid) = none := by
            have hnew := hnone path ⟨_, horiginal, hne⟩
            rw [hrewrites.not_file (by rw [hnew]; nofun), hnew]
          rw [Corpus.atomicWrite_of_new htemporary (by rw [hfile]; nofun)
            (hwritable path ⟨_, horiginal, hne⟩)]
          exact ih (hrewrites.put horiginal)
        case isFalse => exact ih hrewrites
      case h_3 => exact ih hrewrites
      case h_4 => exact ih hrewrites

/-- Nothing is written where every unit is at its fixed point. -/
theorem normalizeFiles_fixed (hfixed : ∀ path data, corpus path = some (.file data) →
    normalize data = data) :
    ∃ report', normalizeFiles writable pid found corpus report = .ok (corpus, report') := by
  induction found generalizing report with
  | nil => exact ⟨_, rfl⟩
  | cons path found ih =>
      unfold normalizeFiles
      split
      case h_1 => exact ih
      case h_2 b rest hfile =>
        rw [if_neg (not_not.mpr (hfixed path _ hfile))]
        exact ih
      case h_3 => exact ih
      case h_4 => exact ih

/-! ## The seeds -/

/-- A seed that is not at its name. -/
def WritesSeed (sha1 : Bytes → Bytes) (seeds : List Bytes) (corpus : Corpus)
    (path : CorpusPath) : Prop :=
  ∃ seed ∈ seeds, path = seedPath sha1 seed ∧ corpus path ≠ some (.file seed)

/-- The path is the name of a seed. -/
def IsSeedPath (sha1 : Bytes → Bytes) (seeds : List Bytes) (path : CorpusPath) : Prop :=
  ∃ seed ∈ seeds, path = seedPath sha1 seed

/-- What is still written once a seed is at its name. -/
theorem WritesSeed.of_rest {seed : Bytes} {corpus₁ : Corpus}
    (hne : ∀ seed' ∈ seeds, seedPath sha1 seed' ≠ seedPath sha1 seed)
    (hrest : ∀ path, path ≠ seedPath sha1 seed → corpus₁ path = corpus path)
    (h : WritesSeed sha1 seeds corpus₁ path) : WritesSeed sha1 (seed :: seeds) corpus path := by
  obtain ⟨seed', hmem, rfl, hwrites⟩ := h
  rw [hrest _ (hne seed' hmem)] at hwrites
  exact ⟨seed', List.mem_cons_of_mem _ hmem, rfl, hwrites⟩

theorem addSeeds_ok (hnames : (seeds.map (seedPath sha1)).Nodup)
    (hfree : TemporariesFree pid corpus (WritesSeed sha1 seeds corpus))
    (h : addSeeds sha1 writable pid seeds corpus report = .ok (corpus', report')) :
    (∀ seed ∈ seeds, corpus' (seedPath sha1 seed) = some (.file seed))
      ∧ ∀ path, ¬ IsSeedPath sha1 seeds path → corpus' path = corpus path := by
  induction seeds generalizing corpus report with
  | nil =>
      cases h
      exact ⟨nofun, fun _ _ => rfl⟩
  | cons seed seeds ih =>
      rw [List.map_cons, List.nodup_cons] at hnames
      obtain ⟨hnew, hnames⟩ := hnames
      have hne : ∀ seed' ∈ seeds, seedPath sha1 seed' ≠ seedPath sha1 seed :=
        fun seed' hmem heq => hnew (heq ▸ List.mem_map_of_mem hmem)
      have hself : ¬ IsSeedPath sha1 seeds (seedPath sha1 seed) := by
        rintro ⟨seed', hmem, heq⟩
        exact hne seed' hmem heq.symm
      -- once the seed is at its name, the other seeds go on from there
      have hnext : ∀ {corpus₁ : Corpus} {report₁},
          corpus₁ (seedPath sha1 seed) = some (.file seed) →
          (∀ path, path ≠ seedPath sha1 seed → corpus₁ path = corpus path) →
          addSeeds sha1 writable pid seeds corpus₁ report₁ = .ok (corpus', report') →
          (∀ seed' ∈ seed :: seeds, corpus' (seedPath sha1 seed') = some (.file seed'))
            ∧ ∀ path, ¬ IsSeedPath sha1 (seed :: seeds) path → corpus' path = corpus path := by
        intro corpus₁ report₁ hseed hrest hadd
        have hfree₁ : TemporariesFree pid corpus₁ (WritesSeed sha1 seeds corpus₁) := by
          intro path hwrites
          rw [hrest _ (temporary_ne_seedPath path pid seed)]
          exact hfree path (hwrites.of_rest hne hrest)
        obtain ⟨hseeds, hothers⟩ := ih hnames hfree₁ hadd
        constructor
        · intro seed' hmem
          rcases List.mem_cons.mp hmem with rfl | hmem
          · rw [hothers _ hself]
            exact hseed
          · exact hseeds seed' hmem
        · intro path hpath
          have hpath' : ¬ IsSeedPath sha1 seeds path := by
            rintro ⟨seed', hmem, heq⟩
            exact hpath ⟨seed', List.mem_cons_of_mem _ hmem, heq⟩
          rw [hothers path hpath']
          refine hrest path ?_
          rintro rfl
          exact hpath ⟨seed, List.mem_cons_self, rfl⟩
      unfold addSeeds at h
      split at h
      case isTrue => cases h
      case isFalse =>
        split at h
        case isTrue hwrites =>
          have htemporary := hfree (seedPath sha1 seed) ⟨seed, List.mem_cons_self, rfl, hwrites⟩
          split at h
          case h_1 => cases h
          case h_2 corpus₁ hwrite =>
            obtain rfl := Corpus.eq_put_of_atomicWrite htemporary hwrite
            exact hnext (Corpus.put_self _ _ _) (fun path hp => Corpus.put_of_ne _ _ hp) h
        case isFalse hthere => exact hnext (not_not.mp hthere) (fun _ _ => rfl) h

/-- Without a directory in the way the seeds are added. -/
theorem addSeeds_total (hnames : (seeds.map (seedPath sha1)).Nodup)
    (hwritable : Writable writable pid (WritesSeed sha1 seeds corpus))
    (hnone : ∀ path, WritesSeed sha1 seeds corpus path → corpus (path.temporary pid) = none)
    (hdirectory : ∀ path, IsSeedPath sha1 seeds path → corpus path ≠ some .directory) :
    ∃ result, addSeeds sha1 writable pid seeds corpus report = .ok result := by
  induction seeds generalizing corpus report with
  | nil => exact ⟨_, rfl⟩
  | cons seed seeds ih =>
      rw [List.map_cons, List.nodup_cons] at hnames
      obtain ⟨hnew, hnames⟩ := hnames
      have hne : ∀ seed' ∈ seeds, seedPath sha1 seed' ≠ seedPath sha1 seed :=
        fun seed' hmem heq => hnew (heq ▸ List.mem_map_of_mem hmem)
      have hseed := hdirectory _ ⟨seed, List.mem_cons_self, rfl⟩
      have hnext : ∀ {corpus₁ : Corpus} {report₁},
          (∀ path, path ≠ seedPath sha1 seed → corpus₁ path = corpus path) →
          ∃ result, addSeeds sha1 writable pid seeds corpus₁ report₁ = .ok result := by
        intro corpus₁ report₁ hrest
        refine ih hnames ?_ ?_ ?_
        · intro path hwrites
          exact hwritable path (hwrites.of_rest hne hrest)
        · intro path hwrites
          rw [hrest _ (temporary_ne_seedPath path pid seed)]
          exact hnone path (hwrites.of_rest hne hrest)
        · rintro _ ⟨seed', hmem, rfl⟩
          rw [hrest _ (hne seed' hmem)]
          exact hdirectory _ ⟨seed', List.mem_cons_of_mem _ hmem, rfl⟩
      unfold addSeeds
      split
      case isTrue hdir => exact absurd hdir hseed
      case isFalse =>
        split
        case isTrue hwrites =>
          have hfirst : WritesSeed sha1 (seed :: seeds) corpus (seedPath sha1 seed) :=
            ⟨seed, List.mem_cons_self, rfl, hwrites⟩
          rw [Corpus.atomicWrite_of_new (hnone _ hfirst) hseed (hwritable _ hfirst)]
          exact hnext fun path hp => Corpus.put_of_ne _ _ hp
        case isFalse => exact hnext fun _ _ => rfl

/-- Nothing is written where every seed is at its name. -/
theorem addSeeds_fixed
    (hthere : ∀ seed ∈ seeds, corpus (seedPath sha1 seed) = some (.file seed)) :
    ∃ report', addSeeds sha1 writable pid seeds corpus report = .ok (corpus, report') := by
  induction seeds generalizing report with
  | nil => exact ⟨_, rfl⟩
  | cons seed seeds ih =>
      have hseed := hthere seed List.mem_cons_self
      unfold addSeeds
      rw [if_neg (by rw [hseed]; nofun), if_neg (not_not.mpr hseed)]
      exact ih fun seed' hmem => hthere seed' (List.mem_cons_of_mem _ hmem)

/-! ## Whole runs -/

variable (sha1 seeds) in
/-- What a full run writes. -/
def WritesFull (corpus : Corpus) (path : CorpusPath) : Prop :=
  WritesUnit corpus path ∨ WritesSeed sha1 seeds corpus path

variable (sha1 seeds) in
/-- What a full run makes of a corpus. -/
structure Prepared (corpus corpus' : Corpus) : Prop where
  seed : ∀ seed ∈ seeds, corpus' (seedPath sha1 seed) = some (.file seed)
  unit : ∀ path data, ¬ IsSeedPath sha1 seeds path → corpus path = some (.file data) →
    data ≠ [] → corpus' path = some (.file (normalize data))
      ∧ (normalize data = data ∨ normalize data = 0x00 :: data)
  empty : ∀ path, ¬ IsSeedPath sha1 seeds path → corpus path = some (.file []) →
    corpus' path = some (.file [])
  other : ∀ path, ¬ IsSeedPath sha1 seeds path → (∀ data, corpus path ≠ some (.file data)) →
    corpus' path = corpus path

/-- The arguments of a full run. -/
def FullRun (argv : List Text) : Prop := argv.length = 2

def SeedsOnlyRun (argv : List Text) : Prop :=
  argv.length = 3 ∧ argv[1]? = some "--seeds-only".toList

theorem main_full {argv : List Text} (h : FullRun argv) :
    Corpus.main sha1 seeds writable pid argv found corpus =
      match normalizeFiles writable pid found corpus ⟨0, 0, 0⟩ with
      | .error error => .error error
      | .ok (corpus, report) => addSeeds sha1 writable pid seeds corpus report := by
  have hlength : argv.length = 2 := h
  have hfull : (argv.length == 3 && argv[1]? == some "--seeds-only".toList) = false := by
    rw [hlength]
    rfl
  unfold Corpus.main
  simp only [hfull]
  rw [if_neg (fun h => h.1 hlength)]
  rfl

theorem main_seedsOnly {argv : List Text} (h : SeedsOnlyRun argv) :
    Corpus.main sha1 seeds writable pid argv found corpus =
      addSeeds sha1 writable pid seeds corpus ⟨0, 0, 0⟩ := by
  have hseeds : (argv.length == 3 && argv[1]? == some "--seeds-only".toList) = true := by
    rw [h.1, h.2]
    exact beq_self_eq_true _
  unfold Corpus.main
  simp only [hseeds]
  rw [if_neg (fun h => by cases h.2), if_pos trivial]

/-- The temporaries of the seeds are still free after the pass over the
units. -/
theorem Rewrites.writesSeed (h : Rewrites original corpus)
    (hseeds : ∀ seed ∈ seeds, normalize seed = seed) (hwrites : WritesSeed sha1 seeds corpus path) :
    WritesSeed sha1 seeds original path := by
  obtain ⟨seed, hmem, rfl, hne⟩ := hwrites
  refine ⟨seed, hmem, rfl, fun horiginal => hne ?_⟩
  rcases h (seedPath sha1 seed) with heq | ⟨data, hdata, heq⟩
  · exact heq.trans horiginal
  · obtain rfl := Entry.file.inj (Option.some.inj (hdata.symm.trans horiginal))
    rw [heq, hseeds data hmem]

theorem main_prepared (hseeds : ∀ seed ∈ seeds, normalize seed = seed)
    (hnames : (seeds.map (seedPath sha1)).Nodup) {argv : List Text} (hargv : FullRun argv)
    (hfound : ∀ path data, corpus path = some (.file data) → path ∈ found)
    (hfree : TemporariesFree pid corpus (WritesFull sha1 seeds corpus))
    (h : Corpus.main sha1 seeds writable pid argv found corpus = .ok (corpus', report')) :
    Prepared sha1 seeds corpus corpus' := by
  rw [main_full hargv] at h
  split at h
  case h_1 => cases h
  case h_2 corpus₁ report₁ hfiles =>
    obtain ⟨hrewrites, hdone⟩ := normalizeFiles_ok (fun path hp => hfree path (.inl hp))
      (fun _ => .inl rfl) hfiles
    have hfree₁ : TemporariesFree pid corpus₁ (WritesSeed sha1 seeds corpus₁) := by
      intro path hwrites
      have hnot := hfree path (.inr (hrewrites.writesSeed hseeds hwrites))
      rw [hrewrites.not_file hnot]
      exact hnot
    obtain ⟨hseed, hothers⟩ := addSeeds_ok hnames hfree₁ h
    have hunit : ∀ path data, ¬ IsSeedPath sha1 seeds path → corpus path = some (.file data) →
        corpus' path = some (.file (normalize data)) := by
      intro path data hpath hfile
      rw [hothers path hpath]
      exact hdone path data hfile (.inl (hfound path data hfile))
    exact {
      seed := hseed
      unit := fun path data hpath hfile _ => ⟨hunit path data hpath hfile, normalize_cases data⟩
      empty := fun path hpath hfile => hunit path [] hpath hfile
      other := fun path hpath hnot => (hothers path hpath).trans (hrewrites.not_file hnot) }

/-- In a prepared corpus every unit is at its fixed point. -/
theorem Prepared.fixed (hseeds : ∀ seed ∈ seeds, normalize seed = seed)
    (h : Prepared sha1 seeds corpus corpus') (hfile : corpus' path = some (.file data)) :
    normalize data = data := by
  by_cases hpath : IsSeedPath sha1 seeds path
  · obtain ⟨seed, hmem, rfl⟩ := hpath
    obtain rfl := Entry.file.inj (Option.some.inj (hfile.symm.trans (h.seed seed hmem)))
    exact hseeds data hmem
  · by_cases horiginal : ∃ d, corpus path = some (.file d)
    · obtain ⟨d, hd⟩ := horiginal
      rcases eq_or_ne d [] with rfl | hempty
      · obtain rfl := Entry.file.inj (Option.some.inj (hfile.symm.trans (h.empty path hpath hd)))
        rfl
      · have hnormal := (h.unit path d hpath hd hempty).1
        obtain rfl := Entry.file.inj (Option.some.inj (hfile.symm.trans hnormal))
        exact normalize_idempotent d
    · have hnot := not_exists.mp horiginal
      exact absurd ((h.other path hpath hnot).symm.trans hfile) (hnot data)

/-- Nothing keeps a run from its writes: the paths can be written, and no
directory has the name of a seed or of a temporary file that is written. -/
structure Unobstructed (sha1 : Bytes → Bytes) (seeds : List Bytes) (writable : CorpusPath → Bool)
    (pid : Nat) (corpus : Corpus) (writes : CorpusPath → Prop) : Prop where
  writable : Writable writable pid writes
  temporary : ∀ path, writes path → corpus (path.temporary pid) ≠ some .directory
  seed : ∀ path, IsSeedPath sha1 seeds path → corpus path ≠ some .directory

theorem Unobstructed.none {writes : CorpusPath → Prop}
    (h : Unobstructed sha1 seeds writable pid corpus writes)
    (hfree : TemporariesFree pid corpus writes)
    (hpath : writes path) : corpus (path.temporary pid) = none := by
  rcases hentry : corpus (path.temporary pid) with _ | ⟨⟨d⟩ | _⟩
  · rfl
  · exact absurd hentry (hfree path hpath d)
  · exact absurd hentry (h.temporary path hpath)

theorem main_total (hseeds : ∀ seed ∈ seeds, normalize seed = seed)
    (hnames : (seeds.map (seedPath sha1)).Nodup) {argv : List Text} (hargv : FullRun argv)
    (hfree : TemporariesFree pid corpus (WritesFull sha1 seeds corpus))
    (hunobstructed : Unobstructed sha1 seeds writable pid corpus (WritesFull sha1 seeds corpus)) :
    ∃ result, Corpus.main sha1 seeds writable pid argv found corpus = .ok result := by
  have hnone : ∀ path, WritesFull sha1 seeds corpus path → corpus (path.temporary pid) = none :=
    fun path hpath => hunobstructed.none hfree hpath
  obtain ⟨⟨corpus₁, report₁⟩, hfiles⟩ :
      ∃ result, normalizeFiles writable pid found corpus ⟨0, 0, 0⟩ = .ok result :=
    normalizeFiles_total (fun _ => .inl rfl) (fun path hp => hunobstructed.writable path (.inl hp))
      fun path hp => hnone path (.inl hp)
  have hrewrites := (normalizeFiles_ok (fun path hp => hfree path (.inl hp))
    (fun _ => .inl rfl) hfiles).1
  rw [main_full hargv, hfiles]
  refine addSeeds_total hnames ?_ ?_ ?_
  · intro path hwrites
    exact hunobstructed.writable path (.inr (hrewrites.writesSeed hseeds hwrites))
  · intro path hwrites
    have hnew := hnone path (.inr (hrewrites.writesSeed hseeds hwrites))
    rw [hrewrites.not_file (by rw [hnew]; nofun), hnew]
  · intro path hpath hdir
    have hdir' : corpus path = some .directory := by
      rcases hrewrites path with heq | ⟨data, -, heq⟩
      · rw [← heq, hdir]
      · cases hdir.symm.trans heq
    exact hunobstructed.seed path hpath hdir'

/-- **Corpus preparation is idempotent and loses nothing**, provided that
no file has the temporary name of a path that the run writes. A full run
prepares the corpus, another one by any process then changes nothing, and
with `--seeds-only` every file but those at the names of seeds is kept.
Only what cannot be written or a directory in the way makes a run fail. -/
theorem corpus_preparation (sha1 : Bytes → Bytes) (seeds : List Bytes)
    (hseeds : ∀ seed ∈ seeds, normalize seed = seed)
    (hnames : (seeds.map fun seed => hexdigest (sha1 seed)).Nodup)
    (writable : CorpusPath → Bool) (pid : Nat) (corpus : Corpus) (found : List CorpusPath)
    (argv : List Text) :
    (FullRun argv → (∀ path data, corpus path = some (.file data) → path ∈ found) →
      TemporariesFree pid corpus (WritesFull sha1 seeds corpus) →
        (Unobstructed sha1 seeds writable pid corpus (WritesFull sha1 seeds corpus) →
          ∃ result, Corpus.main sha1 seeds writable pid argv found corpus = .ok result)
        ∧ ∀ corpus' report,
            Corpus.main sha1 seeds writable pid argv found corpus = .ok (corpus', report) →
            Prepared sha1 seeds corpus corpus'
            ∧ ∀ writable' pid' found' argv', FullRun argv' →
                ∃ report', Corpus.main sha1 seeds writable' pid' argv' found' corpus'
                  = .ok (corpus', report'))
    ∧ (SeedsOnlyRun argv → TemporariesFree pid corpus (WritesSeed sha1 seeds corpus) →
        (Unobstructed sha1 seeds writable pid corpus (WritesSeed sha1 seeds corpus) →
          ∃ result, Corpus.main sha1 seeds writable pid argv found corpus = .ok result)
        ∧ ∀ corpus' report,
            Corpus.main sha1 seeds writable pid argv found corpus = .ok (corpus', report) →
            (∀ seed ∈ seeds, corpus' (seedPath sha1 seed) = some (.file seed))
            ∧ ∀ path, ¬ IsSeedPath sha1 seeds path → corpus' path = corpus path) := by
  have hnames : (seeds.map (seedPath sha1)).Nodup := by
    refine List.Nodup.of_map CorpusPath.name ?_
    rwa [List.map_map]
  constructor
  · intro hargv hfound hfree
    refine ⟨main_total hseeds hnames hargv hfree, fun corpus' report h => ?_⟩
    have hprepared := main_prepared hseeds hnames hargv hfound hfree h
    refine ⟨hprepared, fun writable' pid' found' argv' hargv' => ?_⟩
    obtain ⟨report₁, hfiles⟩ : ∃ report,
        normalizeFiles writable' pid' found' corpus' ⟨0, 0, 0⟩ = .ok (corpus', report) :=
      normalizeFiles_fixed fun path data hfile => hprepared.fixed hseeds hfile
    rw [main_full hargv', hfiles]
    exact addSeeds_fixed hprepared.seed
  · intro hargv hfree
    rw [main_seedsOnly hargv]
    refine ⟨fun hunobstructed => ?_, fun corpus' report h => addSeeds_ok hnames hfree h⟩
    exact addSeeds_total hnames hunobstructed.writable
      (fun path hpath => hunobstructed.none hfree hpath) hunobstructed.seed

/-- A directory with one file. -/
def oneFile (path : CorpusPath) (data : Bytes) : Corpus := Corpus.put (fun _ => none) path data

theorem oneFile_eq_some {path' : CorpusPath} {entry : Entry}
    (h : oneFile path data path' = some entry) : path' = path ∧ entry = .file data := by
  rcases eq_or_ne path' path with rfl | hp
  · exact ⟨rfl, (Option.some.inj ((Corpus.put_self _ _ _).symm.trans h)).symm⟩
  · unfold oneFile at h
    rw [Corpus.put_of_ne _ _ hp] at h
    cases h

def rawPath : CorpusPath := ⟨[], "raw".toList⟩

/-- A file system that takes names of up to 255 bytes, for ASCII names. -/
def nameFits (path : CorpusPath) : Bool := path.name.length ≤ 255

/-- A raw request and a seed. -/
theorem corpus_preparation_raw : ∃ corpus' report,
    Corpus.main id [[0x00, 0x41]] nameFits 7 ["normalize".toList, "corpus".toList] [rawPath]
        (oneFile rawPath [0x47]) = .ok (corpus', report)
      ∧ Prepared id [[0x00, 0x41]] (oneFile rawPath [0x47]) corpus' := by
  have hseeds : ∀ seed ∈ [[0x00, 0x41]], normalize seed = seed := by decide +kernel
  have hnames : ([[0x00, 0x41]].map fun seed : Bytes => hexdigest (id seed)).Nodup :=
    List.nodup_singleton _
  have hfound : ∀ path data, oneFile rawPath [0x47] path = some (.file data) →
      path ∈ [rawPath] :=
    fun path data h => List.mem_singleton.mpr (oneFile_eq_some h).1
  have hfree : TemporariesFree 7 (oneFile rawPath [0x47])
      (WritesFull id [[0x00, 0x41]] (oneFile rawPath [0x47])) := by
    intro path _ d h
    have hname : some '.' = some 'r' := congrArg (fun p => p.name.head?) (oneFile_eq_some h).1
    exact absurd hname (by decide)
  have hnone : ∀ path, oneFile rawPath [0x47] path ≠ some .directory :=
    fun path h => nomatch (oneFile_eq_some h).2
  obtain ⟨htotal, hprepared⟩ := (corpus_preparation id [[0x00, 0x41]] hseeds hnames nameFits 7
    (oneFile rawPath [0x47]) [rawPath] ["normalize".toList, "corpus".toList]).1 rfl hfound hfree
  have hwritable : Writable nameFits 7 (WritesFull id [[0x00, 0x41]] (oneFile rawPath [0x47])) := by
    rintro path (⟨data, hfile, -⟩ | ⟨seed, hmem, rfl, -⟩)
    · obtain ⟨rfl, -⟩ := oneFile_eq_some hfile
      decide
    · obtain rfl := List.mem_singleton.mp hmem
      decide
  obtain ⟨⟨corpus', report⟩, hresult⟩ :=
    htotal ⟨hwritable, fun _ _ => hnone _, fun _ _ => hnone _⟩
  exact ⟨corpus', report, hresult, (hprepared corpus' report hresult).1⟩

/-- A unit that has the name of the temporary file for `raw` is lost. -/
theorem temporary_file_lost : ∃ corpus' report,
    Corpus.main id [] nameFits 7 ["normalize".toList, "corpus".toList]
        [rawPath, rawPath.temporary 7]
        ((oneFile rawPath [0x47]).put (rawPath.temporary 7) [0x00]) = .ok (corpus', report)
      ∧ (oneFile rawPath [0x47]).put (rawPath.temporary 7) [0x00] (rawPath.temporary 7)
          = some (.file [0x00])
      ∧ corpus' (rawPath.temporary 7) = none := by
  exact ⟨_, _, rfl, Corpus.put_self _ _ _, rfl⟩

end LighttpdFuzz

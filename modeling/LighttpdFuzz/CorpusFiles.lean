import LighttpdFuzz.CorpusInput
import LighttpdFuzz.PyText

/-!
# Preparing a corpus

`main` of the corpus tool over a directory tree: it rewrites the units it
finds, in the order in which `rglob` yields them, and then puts the seed
inputs under their SHA-1 names. A file is replaced through a temporary
file next to it, whose name has the number of the process.

Paths are relative to the corpus directory, which exists after `mkdir`.
SHA-1, the list of seeds and the paths that the system lets the process
write are parameters; files can be read.
-/

namespace LighttpdFuzz

/-- A path below the corpus directory. -/
structure CorpusPath where
  parent : List Text
  name : Text
  deriving DecidableEq, Repr

inductive Entry where
  | file (data : Bytes)
  | directory
  deriving DecidableEq, Repr

/-- What is below the corpus directory. -/
abbrev Corpus := CorpusPath → Option Entry

/-- How `main` can fail. -/
inductive CorpusError where
  | usage
  | isADirectory (path : CorpusPath)
  /-- Any other `OSError`, as of a name that is too long. -/
  | notWritable (path : CorpusPath)
  deriving DecidableEq, Repr

/-- `path.with_name(f".{path.name}.{os.getpid()}.tmp")` -/
def CorpusPath.temporary (path : CorpusPath) (pid : Nat) : CorpusPath :=
  { path with name := '.' :: path.name ++ '.' :: Text.ofNat pid ++ ".tmp".toList }

namespace Corpus

def put (corpus : Corpus) (path : CorpusPath) (data : Bytes) : Corpus :=
  Function.update corpus path (some (.file data))

section Writing

variable (writable : CorpusPath → Bool)

/-- `path.write_bytes(data)` -/
def writeBytes (corpus : Corpus) (path : CorpusPath) (data : Bytes) : Except CorpusError Corpus :=
  if corpus path = some .directory then .error (.isADirectory path)
  else if !writable path then .error (.notWritable path)
  else .ok (corpus.put path data)

/-- `temporary.replace(path)` for a file `temporary` with `data`. -/
def replace (corpus : Corpus) (temporary path : CorpusPath) (data : Bytes) :
    Except CorpusError Corpus :=
  if corpus path = some .directory then .error (.isADirectory path)
  else if !writable path then .error (.notWritable path)
  else .ok (Function.update (corpus.put path data) temporary none)

/-- `atomic_write(path, data)`. After `replace` nothing is left to
unlink. -/
def atomicWrite (corpus : Corpus) (pid : Nat) (path : CorpusPath) (data : Bytes) :
    Except CorpusError Corpus := do
  let written ← writeBytes writable corpus (path.temporary pid) data
  replace writable written (path.temporary pid) path data

end Writing

end Corpus

/-- The counters of `main`. -/
structure CorpusReport where
  changed : Nat
  added : Nat
  empty : Nat
  deriving DecidableEq, Repr

/-- The loop over `corpus.rglob("*")`. -/
def normalizeFiles (writable : CorpusPath → Bool) (pid : Nat) :
    List CorpusPath → Corpus → CorpusReport → Except CorpusError (Corpus × CorpusReport)
  | [], corpus, report => .ok (corpus, report)
  | path :: paths, corpus, report =>
      match corpus path with
      | some (.file []) =>
          normalizeFiles writable pid paths corpus { report with empty := report.empty + 1 }
      | some (.file (b :: rest)) =>
          if normalize (b :: rest) ≠ b :: rest then
            match corpus.atomicWrite writable pid path (normalize (b :: rest)) with
            | .error error => .error error
            | .ok corpus =>
                normalizeFiles writable pid paths corpus
                  { report with changed := report.changed + 1 }
          else normalizeFiles writable pid paths corpus report
      | some .directory | none => normalizeFiles writable pid paths corpus report

/-- A digit of `hexdigest`. -/
def hexDigit (n : Nat) : Char := Char.ofNat (if n < 10 then 48 + n else 87 + n)

/-- `hexdigest()` of a digest. -/
def hexdigest (digest : Bytes) : Text :=
  digest.flatMap fun b => [hexDigit (b.toNat / 16), hexDigit (b.toNat % 16)]

/-- Where a seed belongs. -/
def seedPath (sha1 : Bytes → Bytes) (seed : Bytes) : CorpusPath where
  parent := []
  name := hexdigest (sha1 seed)

/-- The loop over `seed_inputs()`. -/
def addSeeds (sha1 : Bytes → Bytes) (writable : CorpusPath → Bool) (pid : Nat) :
    List Bytes → Corpus → CorpusReport → Except CorpusError (Corpus × CorpusReport)
  | [], corpus, report => .ok (corpus, report)
  | seed :: seeds, corpus, report =>
      if corpus (seedPath sha1 seed) = some .directory then
        .error (.isADirectory (seedPath sha1 seed))
      else if corpus (seedPath sha1 seed) ≠ some (.file seed) then
        match corpus.atomicWrite writable pid (seedPath sha1 seed) seed with
        | .error error => .error error
        | .ok corpus =>
            addSeeds sha1 writable pid seeds corpus { report with added := report.added + 1 }
      else addSeeds sha1 writable pid seeds corpus report

/-- `main(argv)` as process `pid`, where `rglob` yields the paths
`found`. -/
def Corpus.main (sha1 : Bytes → Bytes) (seedInputs : List Bytes)
    (writable : CorpusPath → Bool) (pid : Nat) (argv : List Text) (found : List CorpusPath)
    (corpus : Corpus) :
    Except CorpusError (Corpus × CorpusReport) :=
  let seedsOnly := argv.length == 3 && argv[1]? == some "--seeds-only".toList
  if argv.length ≠ 2 ∧ !seedsOnly then .error .usage
  else if seedsOnly then addSeeds sha1 writable pid seedInputs corpus ⟨0, 0, 0⟩
  else
    match normalizeFiles writable pid found corpus ⟨0, 0, 0⟩ with
    | .error error => .error error
    | .ok (corpus, report) => addSeeds sha1 writable pid seedInputs corpus report

end LighttpdFuzz

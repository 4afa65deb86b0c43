import Mathlib.Data.Char
import Mathlib.Data.List.Lex
import LighttpdFuzz.AssocMap
import LighttpdFuzz.PyText

/-!
# Evidence for build checks

`check_build.py` looks for traces of instrumentation in the symbol and
section names of a build artifact. A check has a pattern for symbols and
one for sections; `detect` grades what it finds, and `policyFailed` says
whether a grade breaks what the config expects of the check.
-/

namespace LighttpdFuzz

/-! ## The checks -/

/-- The keys of `CHECKS`, in order. -/
inductive Check where
  | stackProtector | fortify | asan | ubsan | tsan | msan | sancov | sancovCmp
  | sancovPcTable | llvmProfile | sourceCoverage | libfuzzer
  deriving DecidableEq, Repr

def Check.all : List Check :=
  [.stackProtector, .fortify, .asan, .ubsan, .tsan, .msan, .sancov, .sancovCmp,
    .sancovPcTable, .llvmProfile, .sourceCoverage, .libfuzzer]

def Check.name : Check → Text
  | .stackProtector => "stack_protector".toList
  | .fortify => "fortify".toList
  | .asan => "asan".toList
  | .ubsan => "ubsan".toList
  | .tsan => "tsan".toList
  | .msan => "msan".toList
  | .sancov => "sancov".toList
  | .sancovCmp => "sancov_cmp".toList
  | .sancovPcTable => "sancov_pc_table".toList
  | .llvmProfile => "llvm_profile".toList
  | .sourceCoverage => "source_coverage".toList
  | .libfuzzer => "libfuzzer".toList

theorem Check.mem_all (check : Check) : check ∈ Check.all := by
  cases check <;> decide

theorem Check.nodup_all : Check.all.Nodup := by decide

inductive PolicyMode where
  | present | absent | ignore
  deriving DecidableEq, Repr

def PolicyMode.name : PolicyMode → Text
  | .present => "present".toList
  | .absent => "absent".toList
  | .ignore => "ignore".toList

inductive CheckState where
  | found | symbolOnly | notSeen | unknown
  deriving DecidableEq, Repr

/-- `STATES` -/
def CheckState.all : List CheckState := [.found, .symbolOnly, .notSeen, .unknown]

def CheckState.name : CheckState → Text
  | .found => "FOUND".toList
  | .symbolOnly => "SYMBOL-ONLY".toList
  | .notSeen => "NOT-SEEN".toList
  | .unknown => "UNKNOWN".toList

/-! ## Patterns

Every pattern of `CHECKS` is a finite choice of whole names and of names
with an open end (`.*`). -/

/-- The names a pattern matches: some exactly, some with any characters
but newlines after them. -/
structure NamePattern where
  whole : List Text
  openEnded : List Text

/-- `re.fullmatch(pattern, name)` -/
def NamePattern.fullmatch (pattern : NamePattern) (name : Text) : Bool :=
  pattern.whole.contains name
    || pattern.openEnded.any fun lead =>
        decide (lead <+: name) && !(name.drop lead.length).contains '\n'

/-- Every choice of one part from each group, joined. -/
def choices : List (List String) → List Text
  | [] => [[]]
  | group :: groups => group.flatMap fun part => (choices groups).map (part.toList ++ ·)

def fortifyFunctions : List String :=
  ["asprintf", "confstr", "dprintf", "explicit_bzero", "fdelt", "fgets", "fgets_unlocked",
    "fgetws", "fgetws_unlocked", "fprintf", "fread", "fread_unlocked", "fwprintf", "getcwd",
    "getdomainname", "getgroups", "gethostname", "getlogin_r", "gets", "getwd", "longjmp",
    "mbsnrtowcs", "mbsrtowcs", "mbstowcs", "memcpy", "memmove", "mempcpy", "memset",
    "obstack_printf", "obstack_vprintf", "poll", "ppoll", "pread", "pread64", "printf", "read",
    "readlink", "readlinkat", "realpath", "recv", "recvfrom", "snprintf", "sprintf", "stpcpy",
    "stpncpy", "strcat", "strcpy", "strncat", "strncpy", "swprintf", "syslog", "ttyname_r",
    "vasprintf", "vdprintf", "vfprintf", "vfwprintf", "vprintf", "vsnprintf", "vsprintf",
    "vswprintf", "vsyslog", "vwprintf", "wcrtomb", "wcpcpy", "wcpncpy", "wcsnrtombs",
    "wcsrtombs", "wcstombs", "wcscat", "wcscpy", "wcsncat", "wcsncpy", "wctomb", "wmemcpy",
    "wmemmove", "wmempcpy", "wmemset", "wprintf"]

/-- The symbol pattern of a check. -/
def Check.symbolPattern : Check → Option NamePattern
  | .stackProtector => some ⟨choices [["__stack_chk_"], ["fail", "fail_local", "guard"]], []⟩
  | .fortify => some
      ⟨choices [["__"], ["", "nldbl___"], fortifyFunctions, ["_chk"], ["", "ieee128"]]
        ++ choices [["__open"], ["", "64", "at", "at64"], ["_2"]], []⟩
  | .asan => some
      ⟨choices [["__asan_"], ["init", "memcpy", "memmove", "memset"]],
        choices [["__asan_"], ["report_", "load", "store", "stack_", "register_",
          "unregister_"]]⟩
  | .ubsan => some ⟨[], choices [["__ubsan_handle_"]]⟩
  | .tsan => some
      ⟨choices [["__tsan_"], ["init", "func_entry", "func_exit"]],
        choices [["__tsan_"], ["read", "write", "atomic", "vptr_"]]⟩
  | .msan => some ⟨[], choices [["__msan_"]]⟩
  | .sancov => some
      ⟨choices [["__sanitizer_cov_"], ["trace_pc", "trace_pc_guard", "trace_pc_guard_init",
        "8bit_counters_init", "bool_flag_init"]], []⟩
  | .sancovCmp => some
      ⟨choices [["__sanitizer_cov_trace_"], ["", "const_"], ["cmp"], ["1", "2", "4", "8"]]
        ++ choices [["__sanitizer_cov_trace_switch"]], []⟩
  | .sancovPcTable => some ⟨choices [["__sanitizer_cov_pcs_init"]], []⟩
  | .llvmProfile => none
  | .sourceCoverage => none
  | .libfuzzer => some ⟨choices [["LLVMFuzzerRunDriver"]], []⟩

/-- The section pattern of a check. -/
def Check.sectionPattern : Check → Option NamePattern
  | .asan => some ⟨choices [["asan_globals"]], []⟩
  | .sancov => some ⟨choices [["__sancov_"], ["cntrs", "guards", "bools"]], []⟩
  | .sancovPcTable => some ⟨choices [["__sancov_pcs"]], []⟩
  | .llvmProfile => some ⟨choices [["__llvm_prf_"], ["cnts", "bits"]], []⟩
  | .sourceCoverage => some ⟨choices [["__llvm_covmap"]], []⟩
  | _ => none

/-! ## Evidence -/

/-- What one ELF file or archive member shows. -/
structure Evidence where
  references : List Text
  otherSymbols : AssocMap Text Text
  sections : List Text
  symbolsPresent : Bool

/-- The first name in sorted order, `sorted(names)[0]`. -/
def least : List Text → Option Text
  | [] => none
  | name :: names =>
      match least names with
      | none => some name
      | some first => some (if name ≤ first then name else first)

/-- The first name that matches. -/
def firstMatch (pattern : Option NamePattern) (names : List Text) : Option Text :=
  match pattern with
  | none => none
  | some pattern => least (names.filter pattern.fullmatch)

def definitionReason : Text := "definition".toList

/-- `f"{name} ({description})"` -/
def withReason (name description : Text) : Text :=
  name ++ " (".toList ++ description ++ ")".toList

/-- `detect(check, evidence)` -/
def detect (check : Check) (evidence : Evidence) : CheckState × Text :=
  match firstMatch check.sectionPattern evidence.sections with
  | some name => (.found, withReason name "section".toList)
  | none =>
      match firstMatch check.symbolPattern evidence.references with
      | some name => (.found, withReason name "reference".toList)
      | none =>
          match firstMatch check.symbolPattern evidence.otherSymbols.keys with
          | some name =>
              let reason := (evidence.otherSymbols.get name).getD []
              let state := if check = .libfuzzer ∧ reason = definitionReason then CheckState.found
                else CheckState.symbolOnly
              (state, withReason name reason)
          | none =>
              if evidence.symbolsPresent then (.notSeen, "no matching evidence".toList)
              else (.unknown, "symbol table unavailable".toList)

/-- Unknown or definition-only evidence cannot satisfy an enforced policy. -/
def policyFailed (mode : PolicyMode) (state : CheckState) : Bool :=
  (mode == .present && state != .found) || (mode == .absent && state != .notSeen)

@[simp] theorem policyFailed_ignore (state : CheckState) : policyFailed .ignore state = false := rfl

end LighttpdFuzz

import LighttpdFuzz.BuildReport
import LighttpdFuzz.Regex

/-!
# Reading `readelf` output

`parse_elf` collects the evidence of one ELF file from the lines that
`readelf` prints about it, and `inspect` takes the output about an archive
apart at the headings of its members. Both work on decoded text; running
`readelf` is given by its result.
-/

namespace LighttpdFuzz

/-- The character classes of Python's `re` that go beyond white space. -/
structure CharTables where
  /-- `\d` -/
  isDecimal : Char → Bool
  /-- `\w` -/
  isWord : Char → Bool
  decimal_ascii : ∀ c, c.toNat < 0x80 → isDecimal c = c.isDigit
  word_ascii : ∀ c, c.toNat < 0x80 → isWord c = (c.isAlphanum || c == '_')

/-! ## Rows -/

/-- `[0-9a-fA-F]` -/
def isHex (c : Char) : Bool :=
  c.isDigit || (0x61 ≤ c.toNat && c.toNat ≤ 0x66) || (0x41 ≤ c.toNat && c.toNat ≤ 0x46)

/-- The value of one hexadecimal digit. -/
def hexDigitValue (c : Char) : Nat :=
  if c.isDigit then c.toNat - 0x30
  else if 0x61 ≤ c.toNat then c.toNat - 0x61 + 10 else c.toNat - 0x41 + 10

/-- `int(t, 16)` for hexadecimal digits. -/
def hexValue (t : Text) : Nat := t.foldl (fun n c => n * 16 + hexDigitValue c) 0

section Patterns

variable (tables : CharTables)

/-- `\s*` -/
def anySpace : Regex := .many Text.isSpace 0 none

/-- `\s+` -/
def someSpace : Regex := .many Text.isSpace 1 none

/-- `\S+` -/
def someText : Regex := .many (fun c => !Text.isSpace c) 1 none

/-- `\d+` -/
def someDigits : Regex := .many tables.isDecimal 1 none

/-- `[0-9a-fA-F]+` -/
def someHex : Regex := .many isHex 1 none

/-- A row of the section table: index, name, type, address, offset, size,
entry size, flags and link. -/
def sectionPattern : Regex :=
  .seqAll [anySpace, .literal "[".toList, anySpace, someDigits tables, .literal "]".toList,
    someSpace, .group 1 someText, someSpace, someText, someSpace, someHex,
    someSpace, someHex, someSpace, .group 2 someHex, someSpace,
    someHex, someSpace, .group 3 (.many Char.isAlpha 0 none), someSpace, someDigits tables]

/-- `\s*Type:\s+REL\b` -/
def relPattern : Regex :=
  .seqAll [anySpace, .literal "Type:".toList, someSpace, .literal "REL".toList,
    .wordEdge tables.isWord]

/-- `\d+:` -/
def numberPattern : Regex := .seqAll [someDigits tables, .literal ":".toList]

/-- What is used of a row of the section table. -/
structure SectionRow where
  name : Text
  size : Text
  flags : Text
  deriving DecidableEq

def sectionRow (line : Text) : Option SectionRow := do
  let found ← (sectionPattern tables).first none line
  return ⟨(found.group 1).getD [], (found.group 2).getD [], (found.group 3).getD []⟩

/-- What is used of a row of a symbol table. -/
structure SymbolRow where
  binding : Text
  sectionIndex : Text
  name : Text
  deriving DecidableEq

def fileType : Text := "FILE".toList

def sectionType : Text := "SECTION".toList

/-- A row of a symbol table that is not about a file or a section. -/
def symbolRow (line : Text) : Option SymbolRow :=
  let fields := line.split
  if 8 ≤ fields.length
      ∧ ((numberPattern tables).allMatches none (fields.getD 0 [])).any fun m => m.rest.isEmpty then
    if fields.getD 3 [] = fileType ∨ fields.getD 3 [] = sectionType then none
    else
      some ⟨fields.getD 4 [], fields.getD 6 [], (fields.getD 7 []).takeWhile (· != '@')⟩
  else none

end Patterns

def SectionRow.isEmpty (row : SectionRow) : Bool := hexValue row.size == 0

def symtabName : Text := ".symtab".toList

def undefinedIndex : Text := "UND".toList

def weakBinding : Text := "WEAK".toList

def SymbolRow.defined (row : SymbolRow) : Bool := row.sectionIndex != undefinedIndex

def SymbolRow.weak (row : SymbolRow) : Bool := row.binding == weakBinding

/-! ## `parse_elf` -/

/-- The variables of `parse_elf`. -/
structure ElfState where
  references : List Text
  otherSymbols : AssocMap Text Text
  sections : List Text
  headers : Nat
  symtabs : Nat
  hasRuntimeSections : Bool
  relocatable : Bool

def ElfState.start : ElfState := ⟨[], .empty, [], 0, 0, false, false⟩

def elfHeader : Text := "ELF Header:".toList

def weakReason : Text := "weak reference".toList

/-- `other_symbols.setdefault(name, reason)` -/
def setDefault (symbols : AssocMap Text Text) (name reason : Text) : AssocMap Text Text :=
  if (symbols.get name).isSome then symbols else symbols.set name reason

def ElfState.addSection (s : ElfState) (row : SectionRow) : ElfState :=
  let s := if row.name = symtabName then { s with symtabs := s.symtabs + 1 } else s
  if row.isEmpty then s
  else
    { s with
      sections := s.sections.insert row.name
      hasRuntimeSections :=
        s.hasRuntimeSections || row.flags.contains 'A' || row.flags.contains 'X' }

def ElfState.addSymbol (s : ElfState) (row : SymbolRow) : ElfState :=
  if row.defined then { s with otherSymbols := s.otherSymbols.set row.name definitionReason }
  else if row.weak then
    -- Runtimes probe optional sanitizers through weak references.
    { s with otherSymbols := setDefault s.otherSymbols row.name weakReason }
  else { s with references := s.references.insert row.name }

section Parse

variable (tables : CharTables)

/-- The header lines and the kind of file. -/
def ElfState.addHeader (s : ElfState) (line : Text) : ElfState :=
  { s with
    headers := if line = elfHeader then s.headers + 1 else s.headers
    relocatable := s.relocatable || ((relPattern tables).first none line).isSome }

/-- The body of the loop over the lines. -/
def ElfState.addLine (s : ElfState) (line : Text) : ElfState :=
  let s := s.addHeader tables line
  let s := (sectionRow tables line).elim s s.addSection
  (symbolRow tables line).elim s s.addSymbol

def notOneElfFile : Text :=
  "expected one ELF file (non-ELF members and LLVM bitcode are unsupported)".toList

def ltoObject : Text :=
  "GCC LTO objects are unsupported; inspect the final linked binary".toList

def ltoPrefix : Text := ".gnu.lto_".toList

def rustMetadata : Text := "Rust metadata (no runtime code or data)".toList

def metadataSections : List Text := [".rmeta".toList, ".rmeta-link".toList]

def ElfState.evidence (s : ElfState) : Evidence :=
  ⟨s.references, s.otherSymbols, s.sections, s.symtabs ≠ 0⟩

/-- What `parse_elf` makes of the variables after the loop. -/
def ElfState.outcome (s : ElfState) : Except Text Outcome :=
  if s.headers ≠ 1 then .error notOneElfFile
  else if s.sections.any fun name => decide (ltoPrefix <+: name) then .error ltoObject
  else if s.relocatable && !s.hasRuntimeSections
      && s.sections.any metadataSections.contains then .ok (.skipped rustMetadata)
  else .ok (.evidence s.evidence)

def elfState (output : Text) : ElfState := output.splitlines.foldl (.addLine tables) .start

/-- `parse_elf(output, member)`; the unit's member is the caller's. -/
def parseElf (output : Text) : Except Text Outcome := (elfState tables output).outcome

/-! ## `inspect` -/

/-- A finished `readelf`; `stdout` and `stderr` are decoded. -/
structure ReadelfResult where
  stdout : Text
  stderr : Text
  returncode : Int

/-- `diagnostic`; empty if `readelf` had nothing to say. -/
def ReadelfResult.diagnostic (result : ReadelfResult) : Text :=
  if result.returncode ≠ 0 ∨ result.stderr.strip ≠ [] then
    let words := Text.join [' '] result.stderr.split
    let detail := if words = [] then "exit status ".toList ++ Text.ofInt result.returncode
      else words
    "readelf: ".toList ++ detail.take 500
  else []

/-- The outcome of `parse_elf`, with its exception as an error. -/
def elfOutcome (output : Text) : Outcome :=
  match parseElf tables output with
  | .error message => .error message
  | .ok outcome => outcome

def headingStart : Text := "File: ".toList

/-- `(.*)` in a group, between two characters -/
def bracketed (index : Nat) (opening closing : Char) : Regex :=
  .seqAll [.char (· == opening), .group index (.many (· != '\n') 0 none), .char (· == closing)]

/-- The heading of an archive member, in a regular or a thin archive. -/
def headingPattern (path : Text) : Regex :=
  .seqAll [.lineStart, .literal (headingStart ++ path),
    .alt (bracketed 1 '(' ')') (bracketed 2 '[' ']'), .lineEnd]

/-- The member a heading is about. -/
def headingMember (heading : Regex.Match) : Text :=
  match heading.group 1 with
  | some member => member
  | none => (heading.group 2).getD []

def incompleteArchive (diagnostic : Text) : Text :=
  "archive inspection incomplete: ".toList ++ diagnostic

def emptyArchive : Text := "no archive members found (empty archive)".toList

/-- The units of the members, from the headings with the texts up to the
next one. -/
def memberUnits (pieces : List (Regex.Match × Text)) : List BuildUnit :=
  pieces.map fun piece => ⟨headingMember piece.1, elfOutcome tables piece.2⟩

/-- `inspect(path, kind)`, on the result of `readelf`. -/
def inspect (path : Text) (kind : ArtifactKind) (result : ReadelfResult) : List BuildUnit :=
  if kind ≠ .archive then
    if result.diagnostic ≠ [] then [⟨[], .error result.diagnostic⟩]
    else [⟨[], elfOutcome tables result.stdout⟩]
  else
    let units := memberUnits tables ((headingPattern path).cut none result.stdout).2
    if result.diagnostic ≠ [] then
      units ++ [⟨[], .error (incompleteArchive result.diagnostic)⟩]
    else if units = [] then [⟨[], .error emptyArchive⟩]
    else units

end Parse

end LighttpdFuzz

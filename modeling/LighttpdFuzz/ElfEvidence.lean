import LighttpdFuzz.ElfRows

/-!
# Evidence is sound and does not depend on the order of rows

`parse_elf` adds rows to two sets and a dictionary, one after the other.
`Collected` says what they hold in terms of the rows read so far, without
an order: a name is a reference if some row refers to it strongly, and
among the other symbols a definition wins over a weak reference wherever
the rows stand. Every line keeps this (`Collected.addLine`), so the
evidence is a function of the sets of rows (`evidence_same`).

`detect` sorts what it finds, so it depends on the evidence as sets
(`detect_same`), and each policy comes down to which rows there are
(`Collected.present_iff`, `Collected.absent_iff`). Which rows an output has
is a matter of its lines (`ListsSection`, `ListsSymbol`), so the policies
are about these in the end (`ShownPresent`, `ShownAbsent`).
-/

namespace LighttpdFuzz

/-! ## The first name in order -/

theorem least_spec : ∀ {names : List Text}, match least names with
    | none => names = []
    | some first => first ∈ names ∧ ∀ name ∈ names, first ≤ name
  | [] => rfl
  | name :: names => by
      have ih := @least_spec names
      unfold least
      cases h : least names with
      | none =>
          rw [h] at ih
          subst ih
          exact ⟨List.mem_singleton_self name, fun x hx => by rw [List.mem_singleton.mp hx]⟩
      | some first =>
          rw [h] at ih
          obtain ⟨hmem, hall⟩ := ih
          dsimp only
          by_cases hle : name ≤ first
          · rw [if_pos hle]
            exact ⟨List.mem_cons_self, List.forall_mem_cons.mpr
              ⟨le_refl name, fun x hx => le_trans hle (hall x hx)⟩⟩
          · rw [if_neg hle]
            exact ⟨List.mem_cons_of_mem _ hmem, List.forall_mem_cons.mpr
              ⟨(le_total first name).resolve_right hle, hall⟩⟩

theorem least_eq_none {names : List Text} : least names = none ↔ names = [] := by
  have h := @least_spec names
  cases hleast : least names with
  | none =>
      rw [hleast] at h
      exact ⟨fun _ => h, fun _ => rfl⟩
  | some first =>
      rw [hleast] at h
      constructor
      · intro h'
        cases h'
      · rintro rfl
        cases h.1

/-- The first name depends on the names as a set. -/
theorem least_same {names names' : List Text} (h : ∀ name, name ∈ names ↔ name ∈ names') :
    least names = least names' := by
  have hspec := @least_spec names
  have hspec' := @least_spec names'
  cases hleast : least names with
  | none =>
      rw [least_eq_none.mp hleast] at h
      have hnil : names' = [] :=
        List.eq_nil_iff_forall_not_mem.mpr fun name hmem => by cases (h name).mpr hmem
      rw [hnil]
      rfl
  | some first =>
      rw [hleast] at hspec
      cases hleast' : least names' with
      | none =>
          rw [least_eq_none.mp hleast'] at h
          cases (h first).mp hspec.1
      | some first' =>
          rw [hleast'] at hspec'
          rw [le_antisymm (hspec.2 first' ((h first').mpr hspec'.1))
            (hspec'.2 first ((h first).mp hspec.1))]

def patternMatches (pattern : Option NamePattern) (name : Text) : Bool :=
  pattern.any fun pattern => pattern.fullmatch name

theorem firstMatch_eq (pattern : Option NamePattern) (names : List Text) :
    firstMatch pattern names = least (names.filter (patternMatches pattern)) := by
  cases pattern with
  | none =>
      unfold firstMatch
      have hnil : names.filter (patternMatches none) = [] :=
        List.filter_eq_nil_iff.mpr fun _ _ h => by cases h
      rw [hnil]
      rfl
  | some pattern => rfl

theorem firstMatch_eq_none {pattern : Option NamePattern} {names : List Text} :
    firstMatch pattern names = none ↔ ∀ name ∈ names, patternMatches pattern name = false := by
  rw [firstMatch_eq, least_eq_none, List.filter_eq_nil_iff]
  simp only [Bool.not_eq_true]

theorem firstMatch_same {pattern : Option NamePattern} {names names' : List Text}
    (h : ∀ name, name ∈ names ↔ name ∈ names') :
    firstMatch pattern names = firstMatch pattern names' := by
  rw [firstMatch_eq, firstMatch_eq]
  exact least_same fun name => by rw [List.mem_filter, List.mem_filter, h]

/-! ## What the variables hold -/

/-- The reason kept for a symbol that is not referred to strongly: a
definition wins over a weak reference. -/
def symbolReason (symbols : List SymbolRow) (name : Text) : Option Text :=
  if ∃ row ∈ symbols, row.defined = true ∧ row.name = name then some definitionReason
  else if ∃ row ∈ symbols, row.defined = false ∧ row.weak = true ∧ row.name = name then
    some weakReason
  else none

/-- The variables hold what the rows show, in whatever order they came. -/
structure Collected (s : ElfState) (sections : List SectionRow) (symbols : List SymbolRow) :
    Prop where
  references_iff : ∀ name, name ∈ s.references
    ↔ ∃ row ∈ symbols, row.defined = false ∧ row.weak = false ∧ row.name = name
  others_eq : ∀ name, s.otherSymbols.get name = symbolReason symbols name
  sections_iff : ∀ name, name ∈ s.sections ↔ ∃ row ∈ sections, row.isEmpty = false ∧ row.name = name
  symtabs_iff : s.symtabs ≠ 0 ↔ ∃ row ∈ sections, row.name = symtabName

theorem Collected.start : Collected .start [] [] :=
  ⟨by simp [ElfState.start], fun _ => rfl, by simp [ElfState.start], by simp [ElfState.start]⟩

theorem exists_mem_concat {α : Type} {p : α → Prop} {l : List α} {a : α} :
    (∃ x ∈ l ++ [a], p x) ↔ (∃ x ∈ l, p x) ∨ p a := by
  constructor
  · rintro ⟨x, hx, hp⟩
    rcases List.mem_append.mp hx with hx | hx
    · exact Or.inl ⟨x, hx, hp⟩
    · rw [List.mem_singleton] at hx
      exact Or.inr (hx ▸ hp)
  · rintro (⟨x, hx, hp⟩ | hp)
    · exact ⟨x, List.mem_append_left _ hx, hp⟩
    · exact ⟨a, List.mem_append_right _ (List.mem_singleton_self a), hp⟩

variable {s : ElfState} {sections : List SectionRow} {symbols : List SymbolRow}

theorem Collected.addSection (h : Collected s sections symbols) (row : SectionRow) :
    Collected (s.addSection row) (sections ++ [row]) symbols := by
  have hsymtabs : (s.addSection row).symtabs
      = if row.name = symtabName then s.symtabs + 1 else s.symtabs := by
    unfold ElfState.addSection
    split <;> split <;> rfl
  have hnames : (s.addSection row).sections
      = if row.isEmpty then s.sections else s.sections.insert row.name := by
    unfold ElfState.addSection
    split <;> split <;> rfl
  have hreferences : (s.addSection row).references = s.references := by
    unfold ElfState.addSection
    split <;> split <;> rfl
  have hothers : (s.addSection row).otherSymbols = s.otherSymbols := by
    unfold ElfState.addSection
    split <;> split <;> rfl
  refine ⟨by rw [hreferences]; exact h.references_iff, by rw [hothers]; exact h.others_eq, ?_, ?_⟩
  · intro name
    rw [hnames, exists_mem_concat, ← h.sections_iff]
    cases row.isEmpty with
    | true => simp
    | false =>
        rw [if_neg Bool.false_ne_true, List.mem_insert_iff]
        constructor
        · rintro (rfl | hmem)
          · exact Or.inr ⟨rfl, rfl⟩
          · exact Or.inl hmem
        · rintro (hmem | ⟨-, rfl⟩)
          · exact Or.inr hmem
          · exact Or.inl rfl
  · rw [hsymtabs, exists_mem_concat, ← h.symtabs_iff]
    split <;> simp_all

theorem get_setDefault (m : AssocMap Text Text) (name reason name' : Text) :
    (setDefault m name reason).get name'
      = if name' = name then (m.get name').or (some reason) else m.get name' := by
  unfold setDefault
  rcases eq_or_ne name' name with rfl | hname
  · rw [if_pos rfl]
    cases hget : m.get name' with
    | none =>
        rw [if_neg (by simp), AssocMap.get_set_self]
        rfl
    | some old =>
        rw [Option.isSome_some, if_pos rfl, hget]
        rfl
  · rw [if_neg hname]
    split
    · rfl
    · rw [AssocMap.get_set_of_ne _ hname]

/-- A weak reference counts where there is nothing else. -/
theorem symbolReason_weak {row : SymbolRow} (hd : row.defined = false) (hw : row.weak = true)
    (name : Text) : symbolReason (symbols ++ [row]) name
      = if name = row.name then (symbolReason symbols name).or (some weakReason)
        else symbolReason symbols name := by
  rw [symbolReason, symbolReason]
  simp only [exists_mem_concat, hd, hw]
  rcases eq_or_ne name row.name with rfl | hname
  · by_cases hdef : ∃ x ∈ symbols, x.defined = true ∧ x.name = row.name
    · simp [hdef]
    · by_cases hweak : ∃ x ∈ symbols, x.defined = false ∧ x.weak = true ∧ x.name = row.name
      · simp [hdef, hweak]
      · simp [hdef, hweak]
  · simp [hname, Ne.symm hname]

theorem Collected.addSymbol (h : Collected s sections symbols) (row : SymbolRow) :
    Collected (s.addSymbol row) sections (symbols ++ [row]) := by
  unfold ElfState.addSymbol
  cases hd : row.defined with
  | true =>
      rw [if_pos rfl]
      refine ⟨fun name => ?_, fun name => ?_, h.sections_iff, h.symtabs_iff⟩
      · rw [exists_mem_concat, h.references_iff, hd]
        simp
      · rw [AssocMap.get_set, h.others_eq, symbolReason, symbolReason]
        simp only [exists_mem_concat, hd]
        by_cases hname : name = row.name
        · simp [hname]
        · simp [hname, Ne.symm hname]
  | false =>
      rw [if_neg Bool.false_ne_true]
      cases hw : row.weak with
      | true =>
          rw [if_pos rfl]
          refine ⟨fun name => ?_, fun name => ?_, h.sections_iff, h.symtabs_iff⟩
          · rw [exists_mem_concat, h.references_iff, hw]
            simp
          · rw [get_setDefault, symbolReason_weak hd hw, h.others_eq]
      | false =>
          rw [if_neg Bool.false_ne_true]
          refine ⟨fun name => ?_, fun name => ?_, h.sections_iff, h.symtabs_iff⟩
          · rw [List.mem_insert_iff, exists_mem_concat, h.references_iff, hd, hw]
            constructor
            · rintro (rfl | hmem)
              · exact Or.inr ⟨rfl, rfl, rfl⟩
              · exact Or.inl hmem
            · rintro (hmem | ⟨-, -, rfl⟩)
              · exact Or.inr hmem
              · exact Or.inl rfl
          · rw [h.others_eq, symbolReason, symbolReason]
            simp only [exists_mem_concat, hd, hw]
            simp

/-! ## The rows of an output -/

section Rows

variable (tables : CharTables)

def sectionRows (output : Text) : List SectionRow :=
  output.splitlines.filterMap (sectionRow tables)

/-- The rows of the symbol tables; rows about files and sections are none. -/
def symbolRows (output : Text) : List SymbolRow :=
  output.splitlines.filterMap (symbolRow tables)

variable {tables}

theorem Collected.addLine (h : Collected s sections symbols) (line : Text) :
    Collected (s.addLine tables line) (sections ++ (sectionRow tables line).toList)
      (symbols ++ (symbolRow tables line).toList) := by
  have hheader : Collected (s.addHeader tables line) sections symbols :=
    ⟨h.references_iff, h.others_eq, h.sections_iff, h.symtabs_iff⟩
  unfold ElfState.addLine
  have hsection : Collected ((sectionRow tables line).elim (s.addHeader tables line)
      (s.addHeader tables line).addSection) (sections ++ (sectionRow tables line).toList)
      symbols := by
    cases sectionRow tables line with
    | none => simpa using hheader
    | some row => exact hheader.addSection row
  cases symbolRow tables line with
  | none => simpa using hsection
  | some row => exact hsection.addSymbol row

theorem Collected.addLines : ∀ {lines : List Text} {s : ElfState} {sections : List SectionRow}
    {symbols : List SymbolRow}, Collected s sections symbols →
    Collected (lines.foldl (.addLine tables) s) (sections ++ lines.filterMap (sectionRow tables))
      (symbols ++ lines.filterMap (symbolRow tables))
  | [], s, sections, symbols, h => by simpa using h
  | line :: lines, s, sections, symbols, h => by
      have hline : Collected (s.addLine tables line) _ _ := h.addLine line
      have hrest := @Collected.addLines lines _ _ _ hline
      have hcons : ∀ {α : Type} (f : Text → Option α),
          (line :: lines).filterMap f = (f line).toList ++ lines.filterMap f := by
        intro α f
        rw [List.filterMap_cons]
        cases f line <;> rfl
      rw [List.foldl_cons, hcons, hcons, ← List.append_assoc, ← List.append_assoc]
      exact hrest

/-- What `parse_elf` holds after the last line. -/
theorem collected_output (output : Text) :
    Collected (elfState tables output) (sectionRows tables output) (symbolRows tables output) :=
  Collected.start.addLines

theorem parseElf_evidence {output : Text} {evidence : Evidence}
    (h : parseElf tables output = .ok (.evidence evidence)) :
    evidence = (elfState tables output).evidence := by
  rw [parseElf, ElfState.outcome] at h
  split_ifs at h
  · cases h
  · exact (Outcome.evidence.inj (Except.ok.inj h)).symm

end Rows

/-! ## Evidence as sets -/

/-- The same sets and the same dictionary. -/
structure Evidence.Same (e e' : Evidence) : Prop where
  references : ∀ name, name ∈ e.references ↔ name ∈ e'.references
  otherSymbols : ∀ name, e.otherSymbols.get name = e'.otherSymbols.get name
  sections : ∀ name, name ∈ e.sections ↔ name ∈ e'.sections
  symbolsPresent : e.symbolsPresent = e'.symbolsPresent

theorem Collected.evidence_same {s' : ElfState} {sections' : List SectionRow}
    {symbols' : List SymbolRow} (h : Collected s sections symbols)
    (h' : Collected s' sections' symbols') (hsections : ∀ row, row ∈ sections ↔ row ∈ sections')
    (hsymbols : ∀ row, row ∈ symbols ↔ row ∈ symbols') : s.evidence.Same s'.evidence where
  references name := by
    rw [ElfState.evidence, ElfState.evidence, h.references_iff, h'.references_iff]
    simp only [hsymbols]
  otherSymbols name := by
    rw [ElfState.evidence, ElfState.evidence, h.others_eq, h'.others_eq, symbolReason,
      symbolReason]
    simp only [hsymbols]
  sections name := by
    rw [ElfState.evidence, ElfState.evidence, h.sections_iff, h'.sections_iff]
    simp only [hsections]
  symbolsPresent := by
    have hiff : s.symtabs ≠ 0 ↔ s'.symtabs ≠ 0 := by
      rw [h.symtabs_iff, h'.symtabs_iff]
      simp only [hsections]
    exact decide_eq_decide.mpr hiff

theorem mem_keys_same {m m' : AssocMap Text Text} (h : ∀ name, m.get name = m'.get name)
    (name : Text) : name ∈ m.keys ↔ name ∈ m'.keys := by
  rw [← AssocMap.get_isSome_iff, ← AssocMap.get_isSome_iff, h]

/-- `detect` depends on the evidence as sets. -/
theorem detect_same {e e' : Evidence} (h : e.Same e') (check : Check) :
    detect check e = detect check e' := by
  rw [detect, detect, firstMatch_same h.sections, firstMatch_same h.references,
    firstMatch_same (mem_keys_same h.otherSymbols), h.symbolsPresent]
  simp only [h.otherSymbols]

/-! ## Grades and policies -/

theorem firstMatch_isSome {pattern : Option NamePattern} {names : List Text} :
    (∃ name, firstMatch pattern names = some name)
      ↔ ∃ name ∈ names, patternMatches pattern name = true := by
  rw [← Option.ne_none_iff_exists', Ne, firstMatch_eq_none]
  push Not
  simp only [Bool.not_eq_false]

theorem firstMatch_spec {pattern : Option NamePattern} {names : List Text} {name : Text}
    (h : firstMatch pattern names = some name) :
    name ∈ names ∧ patternMatches pattern name = true := by
  have hspec := @least_spec (names.filter (patternMatches pattern))
  rw [← firstMatch_eq, h] at hspec
  exact List.mem_filter.mp hspec.1

/-- The driver of libFuzzer has one name. -/
theorem libfuzzer_name {name : Text}
    (h : patternMatches Check.libfuzzer.symbolPattern name = true) :
    name = "LLVMFuzzerRunDriver".toList := by
  have hwhole : ["LLVMFuzzerRunDriver".toList].contains name = true := by
    have hnone : ([] : List Text).any (fun lead =>
        decide (lead <+: name) && !(name.drop lead.length).contains '\n') = false := rfl
    change (_ || _) = true at h
    rwa [hnone, Bool.or_false] at h
  simpa using hwhole

/-- A section, a strong reference, or the definition of libFuzzer's driver. -/
theorem detect_found_iff (check : Check) (e : Evidence) : (detect check e).1 = .found
    ↔ (∃ name ∈ e.sections, patternMatches check.sectionPattern name = true)
      ∨ (∃ name ∈ e.references, patternMatches check.symbolPattern name = true)
      ∨ check = .libfuzzer ∧ ∃ name, e.otherSymbols.get name = some definitionReason
        ∧ patternMatches check.symbolPattern name = true := by
  unfold detect
  cases hsection : firstMatch check.sectionPattern e.sections with
  | some name =>
      simp only [true_iff]
      exact Or.inl (firstMatch_isSome.mp ⟨name, hsection⟩)
  | none =>
      have hnosection := firstMatch_eq_none.mp hsection
      cases hreference : firstMatch check.symbolPattern e.references with
      | some name =>
          simp only [true_iff]
          exact Or.inr (Or.inl (firstMatch_isSome.mp ⟨name, hreference⟩))
      | none =>
          have hnoreference := firstMatch_eq_none.mp hreference
          have hskip : ∀ p : Prop,
              ((∃ name ∈ e.sections, patternMatches check.sectionPattern name = true)
                ∨ (∃ name ∈ e.references, patternMatches check.symbolPattern name = true) ∨ p)
              ↔ p := by
            intro p
            constructor
            · rintro (⟨name, hmem, hmatch⟩ | ⟨name, hmem, hmatch⟩ | hp)
              · rw [hnosection name hmem] at hmatch
                cases hmatch
              · rw [hnoreference name hmem] at hmatch
                cases hmatch
              · exact hp
            · exact fun hp => Or.inr (Or.inr hp)
          rw [hskip]
          cases hother : firstMatch check.symbolPattern e.otherSymbols.keys with
          | none =>
              have hno := firstMatch_eq_none.mp hother
              have hleft : (if e.symbolsPresent = true then
                  (CheckState.notSeen, "no matching evidence".toList)
                else (.unknown, "symbol table unavailable".toList)).1 ≠ .found := by
                split <;> rintro ⟨⟩
              refine iff_of_false hleft ?_
              rintro ⟨-, name, hget, hmatch⟩
              have hmem : name ∈ e.otherSymbols.keys :=
                AssocMap.get_isSome_iff.mp (by rw [hget]; rfl)
              rw [hno name hmem] at hmatch
              cases hmatch
          | some name =>
              obtain ⟨hmem, hmatch⟩ := firstMatch_spec hother
              obtain ⟨reason, hreason⟩ := Option.isSome_iff_exists.mp
                (AssocMap.get_isSome_iff.mpr hmem)
              simp only [hreason, Option.getD_some]
              by_cases hlib : check = .libfuzzer ∧ reason = definitionReason
              · rw [if_pos hlib]
                obtain ⟨rfl, rfl⟩ := hlib
                exact iff_of_true rfl ⟨rfl, name, hreason, hmatch⟩
              · rw [if_neg hlib]
                refine iff_of_false (by rintro ⟨⟩) ?_
                rintro ⟨rfl, name', hget, hmatch'⟩
                rw [libfuzzer_name hmatch', ← libfuzzer_name hmatch, hreason] at hget
                exact hlib ⟨rfl, Option.some.inj hget⟩

/-- Nothing matches, and a symbol table was there to look at. -/
theorem detect_notSeen_iff (check : Check) (e : Evidence) : (detect check e).1 = .notSeen
    ↔ e.symbolsPresent = true
      ∧ (∀ name ∈ e.sections, patternMatches check.sectionPattern name = false)
      ∧ (∀ name ∈ e.references, patternMatches check.symbolPattern name = false)
      ∧ ∀ name ∈ e.otherSymbols.keys, patternMatches check.symbolPattern name = false := by
  rw [detect, ← firstMatch_eq_none, ← firstMatch_eq_none, ← firstMatch_eq_none]
  cases firstMatch check.sectionPattern e.sections with
  | some name => simp
  | none =>
      cases firstMatch check.symbolPattern e.references with
      | some name => simp
      | none =>
          cases firstMatch check.symbolPattern e.otherSymbols.keys with
          | some name =>
              dsimp only
              split <;> simp
          | none =>
              cases e.symbolsPresent <;> simp

theorem policyFailed_present {state : CheckState} :
    policyFailed .present state = false ↔ state = .found := by
  cases state <;> decide

theorem policyFailed_absent {state : CheckState} :
    policyFailed .absent state = false ↔ state = .notSeen := by
  cases state <;> decide

theorem Collected.present_iff (h : Collected s sections symbols) (check : Check) :
    (detect check s.evidence).1 = .found
      ↔ (∃ row ∈ sections, row.isEmpty = false
          ∧ patternMatches check.sectionPattern row.name = true)
        ∨ (∃ row ∈ symbols, row.defined = false ∧ row.weak = false
          ∧ patternMatches check.symbolPattern row.name = true)
        ∨ check = .libfuzzer ∧ ∃ row ∈ symbols, row.defined = true
          ∧ patternMatches check.symbolPattern row.name = true := by
  rw [detect_found_iff]
  refine or_congr ?_ (or_congr ?_ (and_congr Iff.rfl ?_))
  · simp only [ElfState.evidence, h.sections_iff]
    constructor
    · rintro ⟨_, ⟨row, hrow, hsize, rfl⟩, hmatch⟩
      exact ⟨row, hrow, hsize, hmatch⟩
    · rintro ⟨row, hrow, hsize, hmatch⟩
      exact ⟨row.name, ⟨row, hrow, hsize, rfl⟩, hmatch⟩
  · simp only [ElfState.evidence, h.references_iff]
    constructor
    · rintro ⟨_, ⟨row, hrow, hundefined, hstrong, rfl⟩, hmatch⟩
      exact ⟨row, hrow, hundefined, hstrong, hmatch⟩
    · rintro ⟨row, hrow, hundefined, hstrong, hmatch⟩
      exact ⟨row.name, ⟨row, hrow, hundefined, hstrong, rfl⟩, hmatch⟩
  · simp only [ElfState.evidence, h.others_eq]
    constructor
    · rintro ⟨name, hreason, hmatch⟩
      unfold symbolReason at hreason
      split_ifs at hreason with hdef hweak
      · obtain ⟨row, hrow, hdefined, rfl⟩ := hdef
        exact ⟨row, hrow, hdefined, hmatch⟩
      · exact absurd (Option.some.inj hreason) (by decide)
    · rintro ⟨row, hrow, hdefined, hmatch⟩
      exact ⟨row.name, if_pos ⟨row, hrow, hdefined, rfl⟩, hmatch⟩

/-- Every row of a symbol table is kept: as a strong reference or among the
other symbols. -/
theorem Collected.names (h : Collected s sections symbols) {p : Text → Prop} :
    ((∀ name ∈ s.references, p name) ∧ ∀ name ∈ s.otherSymbols.keys, p name)
      ↔ ∀ row ∈ symbols, p row.name := by
  constructor
  · rintro ⟨hreferences, hothers⟩ row hrow
    by_cases hkind : row.defined = false ∧ row.weak = false
    · exact hreferences _ ((h.references_iff _).mpr ⟨row, hrow, hkind.1, hkind.2, rfl⟩)
    · refine hothers _ (AssocMap.get_isSome_iff.mp ?_)
      rw [h.others_eq, symbolReason]
      by_cases hdef : ∃ x ∈ symbols, x.defined = true ∧ x.name = row.name
      · rw [if_pos hdef]
        rfl
      · have hundefined : row.defined = false := by
          rw [← Bool.not_eq_true]
          exact fun hd => hdef ⟨row, hrow, hd, rfl⟩
        have hweak : row.weak = true := by
          rw [← Bool.not_eq_false]
          exact fun hw => hkind ⟨hundefined, hw⟩
        rw [if_neg hdef, if_pos ⟨row, hrow, hundefined, hweak, rfl⟩]
        rfl
  · intro hall
    refine ⟨fun name hname => ?_, fun name hname => ?_⟩
    · obtain ⟨row, hrow, -, -, rfl⟩ := (h.references_iff name).mp hname
      exact hall row hrow
    · have hsome := AssocMap.get_isSome_iff.mpr hname
      rw [h.others_eq, symbolReason] at hsome
      split_ifs at hsome with hdef hweak
      · obtain ⟨row, hrow, -, rfl⟩ := hdef
        exact hall row hrow
      · obtain ⟨row, hrow, -, -, rfl⟩ := hweak
        exact hall row hrow
      · cases hsome

theorem Collected.absent_iff (h : Collected s sections symbols) (check : Check) :
    (detect check s.evidence).1 = .notSeen
      ↔ (∃ row ∈ sections, row.name = symtabName)
        ∧ (∀ row ∈ sections, row.isEmpty = false →
          patternMatches check.sectionPattern row.name = false)
        ∧ ∀ row ∈ symbols, patternMatches check.symbolPattern row.name = false := by
  rw [detect_notSeen_iff, ← h.symtabs_iff]
  refine and_congr decide_eq_true_iff (and_congr ?_ h.names)
  simp only [ElfState.evidence, h.sections_iff]
  constructor
  · intro hall row hrow hsize
    exact hall row.name ⟨row, hrow, hsize, rfl⟩
  · rintro hall _ ⟨row, hrow, hsize, rfl⟩
    exact hall row hrow hsize

/-! ## What an output shows -/

section Shown

variable (tables : CharTables)

/-- Some line is this row of the section table. -/
def ListsSection (output : Text) (row : SectionRow) : Prop :=
  ∃ line ∈ output.splitlines, IsSectionRow tables line row

/-- Some line is this row of a symbol table. -/
def ListsSymbol (output : Text) (row : SymbolRow) : Prop :=
  ∃ line ∈ output.splitlines, IsSymbolRow tables line row

/-- The size is not zero. -/
def SectionRow.HasSize (row : SectionRow) : Prop := ∃ digit ∈ row.size, digit ≠ '0'

/-- What makes an expected trace present: a section with something in it, a
strong reference, or the definition of libFuzzer's driver. -/
def ShownPresent (check : Check) (output : Text) : Prop :=
  (∃ row, ListsSection tables output row ∧ row.HasSize
      ∧ patternMatches check.sectionPattern row.name = true)
    ∨ (∃ row, ListsSymbol tables output row ∧ row.sectionIndex = undefinedIndex
      ∧ row.binding ≠ weakBinding ∧ patternMatches check.symbolPattern row.name = true)
    ∨ check = .libfuzzer ∧ ∃ row, ListsSymbol tables output row
      ∧ row.sectionIndex ≠ undefinedIndex ∧ patternMatches check.symbolPattern row.name = true

/-- What makes an expected absence shown: a symbol table, and no trace at
all. -/
def ShownAbsent (check : Check) (output : Text) : Prop :=
  (∃ row, ListsSection tables output row ∧ row.name = symtabName)
    ∧ (∀ row, ListsSection tables output row → row.HasSize →
      patternMatches check.sectionPattern row.name = false)
    ∧ ∀ row, ListsSymbol tables output row →
      patternMatches check.symbolPattern row.name = false

variable {tables}

theorem mem_sectionRows (hdecimal : ∀ c, tables.isDecimal c = true → Text.isSpace c = false)
    {output : Text} {row : SectionRow} :
    row ∈ sectionRows tables output ↔ ListsSection tables output row := by
  unfold sectionRows ListsSection
  simp only [List.mem_filterMap, sectionRow_eq_some_iff hdecimal]

theorem mem_symbolRows (hdecimal : ∀ c, tables.isDecimal c = true → Text.isSpace c = false)
    {output : Text} {row : SymbolRow} :
    row ∈ symbolRows tables output ↔ ListsSymbol tables output row := by
  unfold symbolRows ListsSymbol
  simp only [List.mem_filterMap, symbolRow_eq_some_iff hdecimal]

theorem ListsSection.isEmpty_iff {output : Text} {row : SectionRow}
    (h : ListsSection tables output row) : row.isEmpty = false ↔ row.HasSize := by
  obtain ⟨line, -, hline⟩ := h
  exact hline.isEmpty_iff

theorem SymbolRow.defined_iff {row : SymbolRow} :
    row.defined = true ↔ row.sectionIndex ≠ undefinedIndex :=
  bne_iff_ne

theorem SymbolRow.defined_false_iff {row : SymbolRow} :
    row.defined = false ↔ row.sectionIndex = undefinedIndex :=
  bne_eq_false_iff_eq

theorem SymbolRow.weak_false_iff {row : SymbolRow} :
    row.weak = false ↔ row.binding ≠ weakBinding :=
  beq_eq_false_iff_ne

theorem found_iff_shown (hdecimal : ∀ c, tables.isDecimal c = true → Text.isSpace c = false)
    (output : Text) (check : Check) :
    (detect check (elfState tables output).evidence).1 = .found
      ↔ ShownPresent tables check output := by
  rw [(collected_output output).present_iff, ShownPresent]
  simp only [mem_sectionRows hdecimal, mem_symbolRows hdecimal, SymbolRow.defined_iff,
    SymbolRow.defined_false_iff, SymbolRow.weak_false_iff]
  refine or_congr_left (exists_congr fun row => and_congr_right fun hrow => ?_)
  rw [hrow.isEmpty_iff]

theorem notSeen_iff_shown (hdecimal : ∀ c, tables.isDecimal c = true → Text.isSpace c = false)
    (output : Text) (check : Check) :
    (detect check (elfState tables output).evidence).1 = .notSeen
      ↔ ShownAbsent tables check output := by
  rw [(collected_output output).absent_iff, ShownAbsent]
  simp only [mem_sectionRows hdecimal, mem_symbolRows hdecimal]
  refine and_congr_right fun _ => and_congr_left fun _ => forall_congr' fun row =>
    forall_congr' fun hrow => ?_
  rw [hrow.isEmpty_iff]

end Shown

/-- The evidence of one ELF file is a function of the sets of its rows,
whatever their order and repetition; an expected trace is present, or
absent, exactly if the rows show it. -/
theorem elf_evidence_sound (tables : CharTables)
    (hdecimal : ∀ c, tables.isDecimal c = true → Text.isSpace c = false) (output : Text)
    (evidence : Evidence) (h : parseElf tables output = .ok (.evidence evidence))
    (check : Check) :
    (∀ output' evidence', parseElf tables output' = .ok (.evidence evidence') →
        (∀ row, ListsSection tables output row ↔ ListsSection tables output' row) →
        (∀ row, ListsSymbol tables output row ↔ ListsSymbol tables output' row) →
        evidence.Same evidence' ∧ detect check evidence = detect check evidence'
          ∧ ∀ mode, policyFailed mode (detect check evidence).1
            = policyFailed mode (detect check evidence').1)
      ∧ (policyFailed .present (detect check evidence).1 = false
        ↔ ShownPresent tables check output)
      ∧ (policyFailed .absent (detect check evidence).1 = false
        ↔ ShownAbsent tables check output)
      ∧ ((∀ row, ListsSection tables output row → row.name ≠ symtabName) →
        policyFailed .absent (detect check evidence).1 = true) := by
  rw [parseElf_evidence h]
  have habsent := policyFailed_absent.trans (notSeen_iff_shown hdecimal output check)
  refine ⟨fun output' evidence' h' hsections hsymbols => ?_,
    policyFailed_present.trans (found_iff_shown hdecimal output check), habsent, fun hnone => ?_⟩
  · rw [parseElf_evidence h']
    have hsame := (collected_output output).evidence_same (collected_output output')
      (fun row => by rw [mem_sectionRows hdecimal, mem_sectionRows hdecimal, hsections])
      (fun row => by rw [mem_symbolRows hdecimal, mem_symbolRows hdecimal, hsymbols])
    exact ⟨hsame, detect_same hsame check, fun mode => by rw [detect_same hsame check]⟩
  · rw [← Bool.not_eq_false]
    intro hpass
    obtain ⟨row, hrow, hname⟩ := (habsent.mp hpass).1
    exact hnone row hrow hname

/-- ASCII only, which is all that the text below has. -/
def demoTables : CharTables where
  isDecimal := Char.isDigit
  isWord c := c.isAlphanum || c == '_'
  decimal_ascii _ _ := rfl
  word_ascii _ _ := rfl

/-- A symbol that is defined, and referred to strongly, and a map of covered
code. -/
def demoLines : List Text :=
  ["ELF Header:".toList,
    "  [ 1] __llvm_covmap PROGBITS 0000 000040 00001a 00  A  0  0  8".toList,
    "  [ 2] .symtab SYMTAB 0000 000060 000030 18      3  1  8".toList,
    "   1: 0000 0 FUNC GLOBAL DEFAULT 1 __asan_init".toList,
    "   2: 0000 0 FUNC GLOBAL DEFAULT UND __asan_init@V".toList]

def demoElf : Text := Text.join ['\n'] demoLines

/-- The same lines in another order. -/
def demoElfReversed : Text := Text.join ['\n'] demoLines.reverse

theorem demoElf_state : (elfState demoTables demoElf).headers = 1
    ∧ (elfState demoTables demoElf).sections = ["__llvm_covmap".toList, symtabName].reverse
    ∧ (elfState demoTables demoElf).relocatable = false := by
  decide +kernel

theorem demoElfReversed_state : (elfState demoTables demoElfReversed).headers = 1
    ∧ (elfState demoTables demoElfReversed).sections = ["__llvm_covmap".toList, symtabName]
    ∧ (elfState demoTables demoElfReversed).relocatable = false := by
  decide +kernel

theorem demoElf_sections : sectionRows demoTables demoElf
    = [⟨"__llvm_covmap".toList, "00001a".toList, "A".toList⟩,
      ⟨symtabName, "000030".toList, []⟩] := by
  decide +kernel

theorem demoElf_symbols : symbolRows demoTables demoElf
    = [⟨"GLOBAL".toList, "1".toList, "__asan_init".toList⟩,
      ⟨"GLOBAL".toList, undefinedIndex, "__asan_init".toList⟩] := by
  decide +kernel

theorem demoElf_evidence :
    parseElf demoTables demoElf = .ok (.evidence (elfState demoTables demoElf).evidence) := by
  obtain ⟨hheaders, hsections, hrelocatable⟩ := demoElf_state
  rw [parseElf, ElfState.outcome, hheaders, hsections, hrelocatable, if_neg (by decide),
    if_neg (by decide), if_neg (by decide)]

theorem demoElfReversed_evidence : parseElf demoTables demoElfReversed
    = .ok (.evidence (elfState demoTables demoElfReversed).evidence) := by
  obtain ⟨hheaders, hsections, hrelocatable⟩ := demoElfReversed_state
  rw [parseElf, ElfState.outcome, hheaders, hsections, hrelocatable, if_neg (by decide),
    if_neg (by decide), if_neg (by decide)]

theorem demoTables_decimal : ∀ c, demoTables.isDecimal c = true → Text.isSpace c = false :=
  fun _ h => not_isSpace_of_le (toNat_of_isDigit h).1 ((toNat_of_isDigit h).2.trans (by decide))

theorem demoElf_lines (line : Text) :
    line ∈ demoElf.splitlines ↔ line ∈ demoElfReversed.splitlines := by
  have hlines : demoElf.splitlines = demoLines
      ∧ demoElfReversed.splitlines = demoLines.reverse := by
    decide +kernel
  rw [hlines.1, hlines.2, List.mem_reverse]

/-- ASan by the reference, the covered code by the section, no table of
covered addresses, and the same in the other order. -/
theorem elf_evidence_sound_demo :
    policyFailed .present (detect .asan (elfState demoTables demoElf).evidence).1 = false
      ∧ policyFailed .present (detect .sourceCoverage (elfState demoTables demoElf).evidence).1
        = false
      ∧ policyFailed .absent (detect .sancovPcTable (elfState demoTables demoElf).evidence).1
        = false
      ∧ detect .asan (elfState demoTables demoElf).evidence
        = detect .asan (elfState demoTables demoElfReversed).evidence := by
  have hsound := elf_evidence_sound demoTables demoTables_decimal demoElf _ demoElf_evidence
  have hsection : ∀ row,
      ListsSection demoTables demoElf row ↔ row ∈ sectionRows demoTables demoElf :=
    fun _ => (mem_sectionRows demoTables_decimal).symm
  have hsymbol : ∀ row, ListsSymbol demoTables demoElf row ↔ row ∈ symbolRows demoTables demoElf :=
    fun _ => (mem_symbolRows demoTables_decimal).symm
  refine ⟨(hsound .asan).2.1.mpr (Or.inr (Or.inl ?_)),
    (hsound .sourceCoverage).2.1.mpr (Or.inl ?_), (hsound .sancovPcTable).2.2.1.mpr ⟨?_, ?_, ?_⟩,
    ((hsound .asan).1 demoElfReversed _ demoElfReversed_evidence ?_ ?_).2.1⟩
  · refine ⟨⟨"GLOBAL".toList, undefinedIndex, "__asan_init".toList⟩, (hsymbol _).mpr ?_, rfl,
      by decide, by decide +kernel⟩
    rw [demoElf_symbols]
    simp
  · refine ⟨⟨"__llvm_covmap".toList, "00001a".toList, "A".toList⟩, (hsection _).mpr ?_,
      ⟨'1', by decide, by decide⟩, by decide +kernel⟩
    rw [demoElf_sections]
    simp
  · refine ⟨⟨symtabName, "000030".toList, []⟩, (hsection _).mpr ?_, rfl⟩
    rw [demoElf_sections]
    simp
  · have hnone : ∀ row ∈ sectionRows demoTables demoElf,
        patternMatches Check.sancovPcTable.sectionPattern row.name = false := by
      rw [demoElf_sections]
      decide +kernel
    exact fun row hrow _ => hnone row ((hsection row).mp hrow)
  · have hnone : ∀ row ∈ symbolRows demoTables demoElf,
        patternMatches Check.sancovPcTable.symbolPattern row.name = false := by
      rw [demoElf_symbols]
      decide +kernel
    exact fun row hrow => hnone row ((hsymbol row).mp hrow)
  · intro row
    simp only [ListsSection, demoElf_lines]
  · intro row
    simp only [ListsSymbol, demoElf_lines]

end LighttpdFuzz

import LighttpdFuzz.ReadElf

/-!
# The rows of `readelf`

`parse_elf` finds a row of the section table by one long pattern, and a row
of a symbol table by its words. What such rows are is said here without the
pattern: a section row is a number in brackets and columns, each after a
gap (`IsSectionRow`), a symbol row is a line of at least eight words
(`IsSymbolRow`).

The pattern can match in several ways, as far as the last number goes. But
a column ends where the gap after it begins, so name, size and flags are
the same in all of them (`IsSectionRow.unique`), and the match that is
taken gives the row (`sectionRow_eq_some_iff`).
-/

namespace LighttpdFuzz

/-! ## Runs of characters -/

/-- One or more characters of a class. -/
structure IsRun (cls : Char → Bool) (t : Text) : Prop where
  ne_nil : t ≠ []
  all : ∀ c ∈ t, cls c = true

/-- Nothing, or something that begins outside the class. -/
def Leaves (cls : Char → Bool) (t : Text) : Prop := ∀ c, t.head? = some c → cls c = false

theorem IsRun.leaves {p q : Char → Bool} {t u : Text} (h : IsRun q t)
    (hdisjoint : ∀ c, q c = true → p c = false) : Leaves p (t ++ u) := by
  obtain ⟨c, t, rfl⟩ := List.exists_cons_of_ne_nil h.ne_nil
  intro d hd
  obtain rfl : c = d := Option.some.inj hd
  exact hdisjoint c (h.all c List.mem_cons_self)

theorem isRun_iff {cls : Char → Bool} {t : Text} :
    IsRun cls t ↔ (∀ c ∈ t, cls c = true) ∧ 1 ≤ t.length := by
  rw [Nat.one_le_iff_ne_zero, Ne, List.length_eq_zero_iff]
  exact ⟨fun h => ⟨h.all, h.ne_nil⟩, fun h => ⟨h.2, h.1⟩⟩

/-- A run and what follows it are determined by the whole. -/
theorem run_unique {p : Char → Bool} {a a' b b' : Text} (ha : ∀ c ∈ a, p c = true)
    (ha' : ∀ c ∈ a', p c = true) (hb : Leaves p b) (hb' : Leaves p b')
    (h : a ++ b = a' ++ b') : a = a' ∧ b = b' := by
  have hspan : ∀ {a b : Text}, (∀ c ∈ a, p c = true) → Leaves p b →
      (a ++ b).takeWhile p = a := by
    intro a b ha hb
    rw [List.takeWhile_append_of_pos ha]
    cases b with
    | nil => rw [List.takeWhile_nil, List.append_nil]
    | cons c b => rw [List.takeWhile_cons_of_neg (by simp [hb c rfl]), List.append_nil]
  have heq : a = a' := by rw [← hspan ha hb, h, hspan ha' hb']
  subst heq
  exact ⟨rfl, List.append_cancel_left h⟩

/-- A character between `0` and `z` is no space. -/
theorem not_isSpace_of_le {c : Char} (hlow : 0x30 ≤ c.toNat) (hhigh : c.toNat ≤ 0x7a) :
    Text.isSpace c = false := by
  simp only [Text.isSpace, Bool.or_eq_false_iff, Bool.and_eq_false_iff, decide_eq_false_iff_not,
    beq_eq_false_iff_ne]
  omega

theorem toNat_of_isDigit {c : Char} (h : c.isDigit = true) : 0x30 ≤ c.toNat ∧ c.toNat ≤ 0x39 := by
  simp only [Char.isDigit, Bool.and_eq_true, decide_eq_true_eq, UInt32.le_iff_toNat_le,
    ge_iff_le] at h
  exact h

theorem toNat_of_isAlpha {c : Char} (h : c.isAlpha = true) : 0x41 ≤ c.toNat ∧ c.toNat ≤ 0x7a := by
  have hcase : c.isUpper = true ∨ c.isLower = true := Bool.or_eq_true_iff.mp h
  rcases hcase with hupper | hlower
  · obtain ⟨hlow, hhigh⟩ : 0x41 ≤ c.toNat ∧ c.toNat ≤ 0x5a := of_decide_eq_true hupper
    exact ⟨hlow, hhigh.trans (by decide)⟩
  · obtain ⟨hlow, hhigh⟩ := Bool.and_eq_true_iff.mp hlower
    exact ⟨le_trans (by decide) (of_decide_eq_true hlow : 0x61 ≤ c.toNat), of_decide_eq_true hhigh⟩

theorem toNat_of_isHex {c : Char} (h : isHex c = true) : 0x30 ≤ c.toNat ∧ c.toNat ≤ 0x66 := by
  simp only [isHex, Bool.or_eq_true, Bool.and_eq_true, decide_eq_true_eq] at h
  rcases h with (h | h) | h
  · have hdigit := toNat_of_isDigit h
    omega
  · omega
  · omega

theorem not_isSpace_of_isHex {c : Char} (h : isHex c = true) : Text.isSpace c = false :=
  not_isSpace_of_le (toNat_of_isHex h).1 ((toNat_of_isHex h).2.trans (by decide))

theorem not_isSpace_of_isAlpha {c : Char} (h : c.isAlpha = true) : Text.isSpace c = false :=
  not_isSpace_of_le (le_trans (by decide) (toNat_of_isAlpha h).1) (toNat_of_isAlpha h).2

/-! ## Words -/

theorem splitFrom_word : ∀ {run word t : Text}, (∀ c ∈ run, Text.isSpace c = false) →
    Text.splitFrom word (run ++ t) = Text.splitFrom (word ++ run) t
  | [], word, t, _ => by rw [List.nil_append, List.append_nil]
  | c :: run, word, t, h => by
      have hc := h c List.mem_cons_self
      rw [List.cons_append, Text.splitFrom, hc, if_neg Bool.false_ne_true,
        splitFrom_word fun d hd => h d (List.mem_cons_of_mem c hd), List.append_assoc]
      rfl

theorem splitFrom_gap : ∀ {gap t : Text}, (∀ c ∈ gap, Text.isSpace c = true) →
    Text.splitFrom [] (gap ++ t) = Text.splitFrom [] t
  | [], _, _ => rfl
  | c :: gap, t, h => by
      have hc := h c List.mem_cons_self
      rw [List.cons_append, Text.splitFrom, if_pos hc, List.isEmpty_nil, if_pos rfl,
        splitFrom_gap fun d hd => h d (List.mem_cons_of_mem c hd)]

theorem splitFrom_leaves {word t : Text} (hne : word ≠ [])
    (h : Leaves (fun c => !Text.isSpace c) t) : Text.splitFrom word t = word :: t.split := by
  have hword : word.isEmpty = false := by rwa [← Bool.not_eq_true, List.isEmpty_iff]
  cases t with
  | nil =>
      rw [Text.splitFrom, hword]
      rfl
  | cons c t =>
      have hc : Text.isSpace c = true := by simpa using h c rfl
      rw [Text.splitFrom, if_pos hc, hword, if_neg Bool.false_ne_true, Text.split, Text.splitFrom,
        if_pos hc, List.isEmpty_nil, if_pos rfl]

/-- The first word of a text. -/
theorem split_word {gap word t : Text} (hgap : ∀ c ∈ gap, Text.isSpace c = true)
    (hword : IsRun (fun c => !Text.isSpace c) word) (ht : Leaves (fun c => !Text.isSpace c) t) :
    (gap ++ (word ++ t)).split = word :: t.split := by
  have hall : ∀ c ∈ word, Text.isSpace c = false := fun c hc => by simpa using hword.all c hc
  rw [Text.split, splitFrom_gap hgap, splitFrom_word hall, List.nil_append]
  exact splitFrom_leaves hword.ne_nil ht

theorem leaves_dropWhile {p : Char → Bool} {t : Text} : Leaves p (t.dropWhile p) := by
  intro c hc
  have hspec := List.head?_dropWhile_not p t
  rw [hc] at hspec
  simpa using hspec

/-- A text with a word begins with it, after a gap. -/
theorem exists_of_split {t word : Text} {words : List Text} (h : t.split = word :: words) :
    ∃ gap rest, t = gap ++ (word ++ rest) ∧ (∀ c ∈ gap, Text.isSpace c = true)
      ∧ IsRun (fun c => !Text.isSpace c) word ∧ Leaves (fun c => !Text.isSpace c) rest
      ∧ rest.split = words := by
  have hgap : ∀ c ∈ t.takeWhile Text.isSpace, Text.isSpace c = true := fun c hc =>
    List.mem_takeWhile_imp hc
  have ht := (List.takeWhile_append_dropWhile (p := Text.isSpace) (l := t)).symm
  have hleaves := @leaves_dropWhile Text.isSpace t
  generalize t.takeWhile Text.isSpace = gap, t.dropWhile Text.isSpace = u at hgap ht hleaves
  subst ht
  have hu := (List.takeWhile_append_dropWhile (p := fun c => !Text.isSpace c) (l := u)).symm
  have hall : ∀ c ∈ u.takeWhile (fun c => !Text.isSpace c), (!Text.isSpace c) = true :=
    fun c hc => List.mem_takeWhile_imp (p := fun c => !Text.isSpace c) hc
  have hrest := @leaves_dropWhile (fun c => !Text.isSpace c) u
  generalize u.takeWhile (fun c => !Text.isSpace c) = word',
    u.dropWhile (fun c => !Text.isSpace c) = rest at hu hall hrest
  subst hu
  rcases eq_or_ne word' [] with rfl | hne
  · -- nothing but a gap
    cases rest with
    | nil =>
        rw [Text.split, splitFrom_gap hgap] at h
        cases h
    | cons c rest =>
        have hspace := hleaves c rfl
        have hvisible : (!Text.isSpace c) = false := hrest c rfl
        rw [hspace] at hvisible
        cases hvisible
  · have hword : IsRun (fun c => !Text.isSpace c) word' := ⟨hne, hall⟩
    rw [split_word hgap hword hrest] at h
    obtain ⟨rfl, rfl⟩ := List.cons.inj h
    exact ⟨gap, rest, rfl, hgap, hword, hrest, rfl⟩

/-! ## Columns -/

/-- The front of a text, cut into columns: each follows a gap, and `rest`
follows them all. -/
inductive Columns (rest : Text) : List Text → Text → Prop
  | nil : Columns rest [] rest
  | cons {gap column t : Text} {columns : List Text} : IsRun Text.isSpace gap →
      IsRun (fun c => !Text.isSpace c) column → Columns rest columns t →
      Columns rest (column :: columns) (gap ++ (column ++ t))

theorem columns_nil {rest t : Text} : Columns rest [] t ↔ t = rest :=
  ⟨fun h => by cases h; rfl, fun h => h ▸ .nil⟩

theorem columns_cons {rest t column : Text} {columns : List Text} :
    Columns rest (column :: columns) t ↔ ∃ gap t', t = gap ++ (column ++ t')
      ∧ IsRun Text.isSpace gap ∧ IsRun (fun c => !Text.isSpace c) column
      ∧ Columns rest columns t' := by
  constructor
  · rintro (_ | ⟨hgap, hcolumn, h⟩)
    exact ⟨_, _, rfl, hgap, hcolumn, h⟩
  · rintro ⟨gap, t', rfl, hgap, hcolumn, h⟩
    exact .cons hgap hcolumn h

/-- Behind a column there is a gap or the rest. -/
theorem Columns.leaves {rest t : Text} {columns : List Text} (h : Columns rest columns t)
    (hrest : Leaves (fun c => !Text.isSpace c) rest) : Leaves (fun c => !Text.isSpace c) t := by
  cases h with
  | nil => exact hrest
  | cons hgap _ _ => exact hgap.leaves fun c hc => by rw [hc]; rfl

theorem Columns.unique {rest rest' : Text} (hrest : Leaves (fun c => !Text.isSpace c) rest)
    (hrest' : Leaves (fun c => !Text.isSpace c) rest') : ∀ {columns columns' : List Text}
    {t : Text}, columns.length = columns'.length → Columns rest columns t →
    Columns rest' columns' t → columns = columns' ∧ rest = rest' := by
  intro columns columns' t hlength h
  induction h generalizing columns' with
  | nil =>
      intro h'
      rw [List.length_nil, eq_comm, List.length_eq_zero_iff] at hlength
      subst hlength
      cases h'
      exact ⟨rfl, rfl⟩
  | @cons gap column t columns hgap hcolumn hcolumns ih =>
      intro h'
      generalize htext : gap ++ (column ++ t) = text at h'
      cases h' with
      | nil => cases hlength
      | @cons gap' column' t' columns' hgap' hcolumn' hcolumns' =>
          have hstarts : ∀ {column t : Text}, IsRun (fun c => !Text.isSpace c) column →
              Leaves Text.isSpace (column ++ t) := fun hrun =>
            hrun.leaves fun c hc => (Bool.not_eq_true' _).mp hc
          obtain ⟨-, hafter⟩ := run_unique hgap.all hgap'.all (hstarts hcolumn)
            (hstarts hcolumn') htext
          obtain ⟨rfl, rfl⟩ := run_unique hcolumn.all hcolumn'.all (hcolumns.leaves hrest)
            (hcolumns'.leaves hrest') hafter
          obtain ⟨rfl, rfl⟩ := ih (Nat.succ.inj hlength) hcolumns'
          exact ⟨rfl, rfl⟩

/-! ## Section rows -/

section Rows

variable (tables : CharTables)

/-- `line` has a number in brackets in front of `body`. -/
def IsBracketed (line body : Text) : Prop :=
  ∃ lead inner number, line = lead ++ '[' :: ((inner ++ number) ++ ']' :: body)
    ∧ (∀ c ∈ lead, Text.isSpace c = true) ∧ (∀ c ∈ inner, Text.isSpace c = true)
    ∧ IsRun tables.isDecimal number

/-- `rest` goes on with flags, which may be missing, and a number. -/
def IsFlagged (rest flags : Text) : Prop :=
  ∃ gap gap' link more, rest = gap ++ (flags ++ (gap' ++ (link ++ more)))
    ∧ IsRun Text.isSpace gap ∧ (∀ c ∈ flags, c.isAlpha = true) ∧ IsRun Text.isSpace gap'
    ∧ IsRun tables.isDecimal link

/-- A row of the section table: index, name, type, address, offset, size,
entry size, flags and link. -/
def IsSectionRow (line : Text) (row : SectionRow) : Prop :=
  ∃ body kind address offset entrySize rest, IsBracketed tables line body
    ∧ Columns rest [row.name, kind, address, offset, row.size, entrySize] body
    ∧ (∀ column ∈ [address, offset, row.size, entrySize], ∀ c ∈ column, isHex c = true)
    ∧ IsFlagged tables rest row.flags

variable {tables}

theorem IsBracketed.unique {line body body' : Text} (h : IsBracketed tables line body)
    (h' : IsBracketed tables line body') : body = body' := by
  have hnot : ∀ {bracket : Char}, Text.isSpace bracket = false → ∀ {t : Text},
      (∀ c ∈ t, Text.isSpace c = true) → bracket ∉ t := by
    intro bracket hbracket t ht hmem
    rw [ht bracket hmem] at hbracket
    cases hbracket
  have hnumber : ∀ {inner number : Text}, (∀ c ∈ inner, Text.isSpace c = true) →
      IsRun tables.isDecimal number → ']' ∉ inner ++ number := by
    intro inner number hinner hnumber hmem
    rcases List.mem_append.mp hmem with hmem | hmem
    · exact hnot rfl hinner hmem
    · have hdecimal := hnumber.all ']' hmem
      rw [tables.decimal_ascii ']' (by decide)] at hdecimal
      cases hdecimal
  obtain ⟨lead, inner, number, rfl, hlead, hinner, hrun⟩ := h
  obtain ⟨lead', inner', number', heq, hlead', hinner', hrun'⟩ := h'
  obtain ⟨-, hbehind⟩ := Text.append_sep_inj (hnot rfl hlead) (hnot rfl hlead') heq
  exact (Text.append_sep_inj (hnumber hinner hrun) (hnumber hinner' hrun') hbehind).2

theorem IsFlagged.leaves {rest flags : Text} (h : IsFlagged tables rest flags) :
    Leaves (fun c => !Text.isSpace c) rest := by
  obtain ⟨gap, gap', link, more, rfl, hgap, -⟩ := h
  exact hgap.leaves fun c hc => by rw [hc]; rfl

/-- Either both have flags or the first number comes after the first gap
in both. -/
theorem IsFlagged.unique (hdecimal : ∀ c, tables.isDecimal c = true → Text.isSpace c = false)
    {rest flags flags' : Text} (h : IsFlagged tables rest flags)
    (h' : IsFlagged tables rest flags') : flags = flags' := by
  obtain ⟨gap₁, gap₂, link, more, rfl, hgap₁, hflags, hgap₂, hlink⟩ := h
  obtain ⟨gap₁', gap₂', link', more', heq, hgap₁', hflags', hgap₂', hlink'⟩ := h'
  -- flags on one side only: a letter would stand where there is a number
  have hmixed : ∀ {gap₁ gap₂ link more gap₁' flags' rest : Text}, IsRun Text.isSpace gap₁ →
      IsRun Text.isSpace gap₂ → IsRun tables.isDecimal link → IsRun Text.isSpace gap₁' →
      (∀ c ∈ flags', c.isAlpha = true) → flags' ≠ [] →
      gap₁ ++ (gap₂ ++ (link ++ more)) ≠ gap₁' ++ (flags' ++ rest) := by
    intro gap₁ gap₂ link more gap₁' flags' rest hgap₁ hgap₂ hlink hgap₁' hflags' hne heq
    rw [← List.append_assoc] at heq
    have hgaps : ∀ c ∈ gap₁ ++ gap₂, Text.isSpace c = true := fun c hc =>
      (List.mem_append.mp hc).elim (hgap₁.all c) (hgap₂.all c)
    have hletters : IsRun Char.isAlpha flags' := ⟨hne, hflags'⟩
    obtain ⟨-, hbehind⟩ := run_unique hgaps hgap₁'.all (hlink.leaves hdecimal)
      (hletters.leaves fun c => not_isSpace_of_isAlpha) heq
    obtain ⟨c, flags', rfl⟩ := List.exists_cons_of_ne_nil hne
    obtain ⟨d, link, rfl⟩ := List.exists_cons_of_ne_nil hlink.ne_nil
    obtain ⟨rfl, -⟩ := List.cons.inj hbehind
    have hletter := hflags' d List.mem_cons_self
    have hrange := toNat_of_isAlpha hletter
    have hdigit := hlink.all d List.mem_cons_self
    rw [tables.decimal_ascii d (by omega)] at hdigit
    have hrange' := toNat_of_isDigit hdigit
    omega
  rcases eq_or_ne flags [] with rfl | hne
  · rcases eq_or_ne flags' [] with rfl | hne'
    · rfl
    · rw [List.nil_append] at heq
      exact absurd heq (hmixed hgap₁ hgap₂ hlink hgap₁' hflags' hne')
  · rcases eq_or_ne flags' [] with rfl | hne'
    · rw [List.nil_append] at heq
      exact absurd heq.symm (hmixed hgap₁' hgap₂' hlink' hgap₁ hflags hne)
    · have hletters : IsRun Char.isAlpha flags := ⟨hne, hflags⟩
      have hletters' : IsRun Char.isAlpha flags' := ⟨hne', hflags'⟩
      have hspace : ∀ c, Text.isSpace c = true → c.isAlpha = false := fun c hc => by
        rw [← Bool.not_eq_true]
        intro halpha
        rw [not_isSpace_of_isAlpha halpha] at hc
        cases hc
      obtain ⟨-, hbehind⟩ := run_unique hgap₁.all hgap₁'.all
        (hletters.leaves fun c => not_isSpace_of_isAlpha)
        (hletters'.leaves fun c => not_isSpace_of_isAlpha) heq
      exact (run_unique hflags hflags' (hgap₂.leaves hspace) (hgap₂'.leaves hspace) hbehind).1

/-- A line is no two section rows. -/
theorem IsSectionRow.unique (hdecimal : ∀ c, tables.isDecimal c = true → Text.isSpace c = false)
    {line : Text} {row row' : SectionRow} (h : IsSectionRow tables line row)
    (h' : IsSectionRow tables line row') : row = row' := by
  obtain ⟨body, kind, address, offset, entrySize, rest, hbody, hcolumns, -, hflags⟩ := h
  obtain ⟨body', kind', address', offset', entrySize', rest', hbody', hcolumns', -, hflags'⟩ := h'
  obtain rfl := hbody.unique hbody'
  have hlength : ∀ {a b c d e f a' b' c' d' e' f' : Text},
      [a, b, c, d, e, f].length = [a', b', c', d', e', f'].length := rfl
  obtain ⟨heq, rfl⟩ := Columns.unique hflags.leaves hflags'.leaves hlength hcolumns hcolumns'
  simp only [List.cons.injEq] at heq
  obtain ⟨name, size, flags⟩ := row
  obtain ⟨name', size', flags'⟩ := row'
  obtain ⟨rfl, -, -, -, rfl, -⟩ := heq
  obtain rfl := hflags.unique hdecimal hflags'
  rfl

/-! ### The pattern -/

/-- A gap and a column in front of a pattern. -/
theorem mem_seq_column {cls : Char → Bool} {r : Regex} {prev : Option Char} {t taken more : Text}
    {groups : List (Nat × Text)} :
    ⟨taken, more, groups⟩ ∈ (Regex.seq someSpace (.seq (.many cls 1 none) r)).allMatches prev t
      ↔ ∃ gap column t' taken', IsRun Text.isSpace gap ∧ IsRun cls column
        ∧ t = gap ++ (column ++ t') ∧ taken = gap ++ (column ++ taken')
        ∧ ⟨taken', more, groups⟩ ∈ r.allMatches (column.getLast?.or (gap.getLast?.or prev)) t' := by
  simp only [someSpace, Regex.mem_seq_many, isRun_iff]
  constructor
  · rintro ⟨gap, _, _, hgap, hgap', rfl, rfl, column, taken', t', hcolumn, hcolumn', rfl, rfl, h⟩
    exact ⟨gap, column, t', taken', ⟨hgap, hgap'⟩, ⟨hcolumn, hcolumn'⟩, rfl, rfl, h⟩
  · rintro ⟨gap, column, t', taken', ⟨hgap, hgap'⟩, ⟨hcolumn, hcolumn'⟩, rfl, rfl, h⟩
    exact ⟨gap, _, _, hgap, hgap', rfl, rfl, column, taken', t', hcolumn, hcolumn', rfl, rfl, h⟩

/-- A gap and a column in a group in front of a pattern. -/
theorem mem_seq_group_column {index : Nat} {cls : Char → Bool} {r : Regex} {prev : Option Char}
    {t taken more : Text} {groups : List (Nat × Text)} :
    ⟨taken, more, groups⟩
        ∈ (Regex.seq someSpace (.seq (.group index (.many cls 1 none)) r)).allMatches prev t
      ↔ ∃ gap column t' taken' groups', IsRun Text.isSpace gap ∧ IsRun cls column
        ∧ t = gap ++ (column ++ t') ∧ taken = gap ++ (column ++ taken')
        ∧ groups = (index, column) :: groups'
        ∧ ⟨taken', more, groups'⟩
          ∈ r.allMatches (column.getLast?.or (gap.getLast?.or prev)) t' := by
  simp only [someSpace, Regex.mem_seq_many, Regex.mem_seq_group_many, isRun_iff]
  constructor
  · rintro ⟨gap, _, _, hgap, hgap', rfl, rfl, column, taken', t', groups', hcolumn, hcolumn', rfl,
      rfl, hgroups, h⟩
    exact ⟨gap, column, t', taken', groups', ⟨hgap, hgap'⟩, ⟨hcolumn, hcolumn'⟩, rfl, rfl,
      hgroups, h⟩
  · rintro ⟨gap, column, t', taken', groups', ⟨hgap, hgap'⟩, ⟨hcolumn, hcolumn'⟩, rfl, rfl,
      hgroups, h⟩
    exact ⟨gap, _, _, hgap, hgap', rfl, rfl, column, taken', t', groups', hcolumn, hcolumn', rfl,
      rfl, hgroups, h⟩

/-- The end of the pattern. -/
theorem isFlagged_of_mem {prev : Option Char} {t taken more : Text} {groups : List (Nat × Text)}
    (h : ⟨taken, more, groups⟩ ∈ (Regex.seq someSpace
      (.seq (.group 3 (.many Char.isAlpha 0 none)) (.seq someSpace
        (.seq (someDigits tables) .empty)))).allMatches prev t) :
    ∃ flags, groups = [(3, flags)] ∧ IsFlagged tables t flags := by
  simp only [someDigits, someSpace, Regex.mem_seq_many, Regex.mem_seq_group_many,
    Regex.mem_empty] at h
  obtain ⟨gap, _, _, hgap, hleast, rfl, -, flags, _, _, _, hflags, -, rfl, -, rfl,
    gap', _, _, hgap', hleast', rfl, -, link, _, more, hlink, hlinked, rfl, -, -, -, rfl⟩ := h
  exact ⟨flags, rfl, gap, gap', link, more, rfl, isRun_iff.mpr ⟨hgap, hleast⟩, hflags,
    isRun_iff.mpr ⟨hgap', hleast'⟩, isRun_iff.mpr ⟨hlink, hlinked⟩⟩

/-- Every match of the pattern is a section row. -/
theorem isSectionRow_of_match {line : Text} {m : Regex.Match}
    (h : m ∈ (sectionPattern tables).allMatches none line) :
    IsSectionRow tables line
      ⟨(m.group 1).getD [], (m.group 2).getD [], (m.group 3).getD []⟩ := by
  obtain ⟨taken, more, groups⟩ := m
  have hvisible : ∀ {column : Text}, IsRun isHex column →
      IsRun (fun c => !Text.isSpace c) column := fun hcolumn =>
    ⟨hcolumn.ne_nil, fun c hc => by rw [not_isSpace_of_isHex (hcolumn.all c hc)]; rfl⟩
  simp only [sectionPattern, anySpace, someText, someHex, Regex.seqAll, List.foldr_cons,
    List.foldr_nil, Regex.mem_seq_many, Regex.mem_seq_literal] at h
  obtain ⟨lead, _, _, hlead, -, rfl, -, _, _, rfl, -, inner, _, _, hinner, -, rfl, -, h⟩ := h
  obtain ⟨number, _, _, hnumber, hleast, rfl, -, h⟩ := Regex.mem_seq_many.mp h
  obtain ⟨_, body, rfl, -, h⟩ := Regex.mem_seq_literal.mp h
  have hbody : IsBracketed tables
      (lead ++ ("[".toList ++ (inner ++ (number ++ ("]".toList ++ body)))))
      body := by
    refine ⟨lead, inner, number, ?_, hlead, hinner, isRun_iff.mpr ⟨hnumber, hleast⟩⟩
    rw [List.append_assoc]
    rfl
  generalize lead ++ ("[".toList ++ (inner ++ (number ++ ("]".toList ++ body)))) = line at hbody ⊢
  simp only [mem_seq_column, mem_seq_group_column] at h
  obtain ⟨gap₁, name, _, _, _, hgap₁, hname, rfl, -, rfl, gap₂, kind, _, _, hgap₂, hkind, rfl, -,
    gap₃, address, _, _, hgap₃, haddress, rfl, -, gap₄, offset, _, _, hgap₄, hoffset, rfl, -,
    gap₅, size, _, _, _, hgap₅, hsize, rfl, -, rfl, gap₆, entrySize, rest, _, hgap₆, hentry, rfl,
    -, h⟩ := h
  obtain ⟨flags, rfl, hflags⟩ := isFlagged_of_mem h
  have hcolumns : Columns rest [name, kind, address, offset, size, entrySize] _ :=
    .cons hgap₁ hname (.cons hgap₂ hkind (.cons hgap₃ (hvisible haddress)
      (.cons hgap₄ (hvisible hoffset) (.cons hgap₅ (hvisible hsize)
        (.cons hgap₆ (hvisible hentry) .nil)))))
  refine ⟨_, kind, address, offset, entrySize, rest, hbody, hcolumns, ?_, hflags⟩
  change ∀ column ∈ [address, offset, size, entrySize], ∀ c ∈ column, isHex c = true
  simp only [List.forall_mem_cons, List.not_mem_nil, false_imp_iff, implies_true, and_true]
  exact ⟨haddress.all, hoffset.all, hsize.all, hentry.all⟩

theorem IsRun.fits {cls : Char → Bool} {run t : Text} {r : Regex} (hrun : IsRun cls run)
    (h : r.Fits t) : (Regex.seq (.many cls 1 none) r).Fits (run ++ t) :=
  .many hrun.all (isRun_iff.mp hrun).2 h

theorem IsRun.fits_group {cls : Char → Bool} {run t : Text} {r : Regex} (hrun : IsRun cls run)
    (index : Nat) (h : r.Fits t) :
    (Regex.seq (.group index (.many cls 1 none)) r).Fits (run ++ t) :=
  .group_many hrun.all (isRun_iff.mp hrun).2 h

/-- The pattern matches in front of every section row. -/
theorem IsSectionRow.fits {line : Text} {row : SectionRow} (h : IsSectionRow tables line row) :
    (sectionPattern tables).Fits line := by
  obtain ⟨body, kind, address, offset, entrySize, rest, hbody, hcolumns, hhex, hflags⟩ := h
  obtain ⟨lead, inner, number, rfl, hlead, hinner, hnumber⟩ := hbody
  obtain ⟨gap, gap', link, more, rfl, hgap, hflags, hgap', hlink⟩ := hflags
  simp only [List.forall_mem_cons, List.not_mem_nil, false_imp_iff, implies_true, and_true] at hhex
  obtain ⟨haddress, hoffset, hsize, hentry⟩ := hhex
  simp only [columns_cons, columns_nil] at hcolumns
  obtain ⟨gap₁, _, rfl, hgap₁, hname, gap₂, _, rfl, hgap₂, hkind, gap₃, _, rfl, hgap₃, haddress',
    gap₄, _, rfl, hgap₄, hoffset', gap₅, _, rfl, hgap₅, hsize', gap₆, _, rfl, hgap₆, hentry',
    rfl⟩ := hcolumns
  have hend : (Regex.seq someSpace (.seq (.group 3 (.many Char.isAlpha 0 none))
      (.seq someSpace (.seq (someDigits tables) .empty)))).Fits
      (gap ++ (row.flags ++ (gap' ++ (link ++ more)))) :=
    hgap.fits (.group_many hflags (Nat.zero_le _) (hgap'.fits (hlink.fits .empty)))
  have hcolumns := hgap₁.fits (hname.fits_group 1 (hgap₂.fits (hkind.fits (hgap₃.fits
    (IsRun.fits ⟨haddress'.ne_nil, haddress⟩ (hgap₄.fits (IsRun.fits ⟨hoffset'.ne_nil, hoffset⟩
      (hgap₅.fits (IsRun.fits_group ⟨hsize'.ne_nil, hsize⟩ 2 (hgap₆.fits
        (IsRun.fits ⟨hentry'.ne_nil, hentry⟩ hend)))))))))))
  have hbracket := Regex.Fits.many hlead (Nat.zero_le _) (.literal (s := "[".toList)
    (.many hinner (Nat.zero_le _) (hnumber.fits (.literal (s := "]".toList) hcolumns))))
  rw [List.append_assoc]
  exact hbracket

/-- The row that is read from a line is the one the line shows. -/
theorem sectionRow_eq_some_iff
    (hdecimal : ∀ c, tables.isDecimal c = true → Text.isSpace c = false) {line : Text}
    {row : SectionRow} : sectionRow tables line = some row ↔ IsSectionRow tables line row := by
  have hsound : ∀ {row}, sectionRow tables line = some row → IsSectionRow tables line row := by
    intro row h
    unfold sectionRow at h
    cases hfirst : (sectionPattern tables).first none line with
    | none =>
        rw [hfirst] at h
        cases h
    | some m =>
        rw [hfirst] at h
        obtain rfl := Option.some.inj h
        exact isSectionRow_of_match (Regex.mem_of_first hfirst)
  refine ⟨hsound, fun h => ?_⟩
  obtain ⟨m, hm⟩ := h.fits none
  obtain ⟨m', hfirst⟩ := Regex.first_isSome_of_mem hm
  have hsome : ∃ row', sectionRow tables line = some row' := by
    unfold sectionRow
    rw [hfirst]
    exact ⟨_, rfl⟩
  obtain ⟨row', hrow'⟩ := hsome
  rw [hrow', h.unique hdecimal (hsound hrow')]

/-! ## Symbol rows -/

variable (tables) in
/-- A row of a symbol table that is not about a file or a section: a number
with a colon, value, size, type, binding, visibility, section and name. The
name may have a version. -/
def IsSymbolRow (line : Text) (row : SymbolRow) : Prop :=
  ∃ lead number body value size kind visibility shown rest, line = lead ++ (number ++ ':' :: body)
    ∧ (∀ c ∈ lead, Text.isSpace c = true) ∧ IsRun tables.isDecimal number
    ∧ Columns rest [value, size, kind, row.binding, visibility, row.sectionIndex, shown] body
    ∧ Leaves (fun c => !Text.isSpace c) rest ∧ kind ≠ fileType ∧ kind ≠ sectionType
    ∧ '@' ∉ row.name ∧ (shown = row.name ∨ ∃ version, shown = row.name ++ '@' :: version)

theorem Columns.split {rest t : Text} {columns : List Text} (h : Columns rest columns t)
    (hrest : Leaves (fun c => !Text.isSpace c) rest) : t.split = columns ++ rest.split := by
  induction h with
  | nil => rfl
  | cons hgap hcolumn hcolumns ih =>
      rw [split_word hgap.all hcolumn (hcolumns.leaves hrest), ih, List.cons_append]

/-- Words behind a gap are columns. -/
theorem columns_of_split : ∀ {columns words : List Text} {t : Text},
    t.split = columns ++ words → Leaves (fun c => !Text.isSpace c) t →
    ∃ rest, Columns rest columns t ∧ Leaves (fun c => !Text.isSpace c) rest
  | [], _, t, _, ht => ⟨t, .nil, ht⟩
  | column :: columns, words, t, h, ht => by
      obtain ⟨gap, t, rfl, hgap, hcolumn, ht', hwords⟩ := exists_of_split h
      obtain ⟨rest, hcolumns, hrest⟩ := columns_of_split hwords ht'
      have hne : gap ≠ [] := by
        rintro rfl
        obtain ⟨c, column, rfl⟩ := List.exists_cons_of_ne_nil hcolumn.ne_nil
        have hvisible : (!Text.isSpace c) = false := ht c rfl
        rw [hcolumn.all c List.mem_cons_self] at hvisible
        cases hvisible
      exact ⟨rest, .cons ⟨hne, hgap⟩ hcolumn hcolumns, hrest⟩

/-- `takeWhile` cuts off the version. -/
theorem takeWhile_version {shown name : Text} : shown.takeWhile (· != '@') = name
    ↔ '@' ∉ name ∧ (shown = name ∨ ∃ version, shown = name ++ '@' :: version) := by
  have hnot : ∀ {t : Text}, '@' ∉ t → ∀ c ∈ t, (c != '@') = true := fun ht c hc =>
    bne_iff_ne.mpr fun heq => ht (heq ▸ hc)
  constructor
  · rintro rfl
    refine ⟨fun hmem => ?_, ?_⟩
    · have h := List.mem_takeWhile_imp hmem
      cases h
    · have hsplit := (List.takeWhile_append_dropWhile (p := (· != '@')) (l := shown)).symm
      have hleaves := @leaves_dropWhile (· != '@') shown
      cases hdrop : shown.dropWhile (· != '@') with
      | nil =>
          rw [hdrop, List.append_nil] at hsplit
          exact Or.inl hsplit
      | cons c version =>
          rw [hdrop] at hsplit hleaves
          obtain rfl : c = '@' := by simpa using hleaves c rfl
          exact Or.inr ⟨version, hsplit⟩
  · rintro ⟨hname, rfl | ⟨version, rfl⟩⟩
    · exact List.takeWhile_eq_self_iff.mpr (hnot hname)
    · rw [List.takeWhile_append_of_pos (hnot hname), List.takeWhile_cons_of_neg (by simp),
        List.append_nil]

/-- A word that is a number with a colon. -/
theorem numberPattern_iff {word : Text} :
    (((numberPattern tables).allMatches none word).any fun m => m.rest.isEmpty) = true
      ↔ ∃ number, IsRun tables.isDecimal number ∧ word = number ++ [':'] := by
  rw [List.any_eq_true]
  constructor
  · rintro ⟨⟨taken, more, groups⟩, hm, hmore⟩
    simp only [numberPattern, someDigits, Regex.seqAll, List.foldr_cons, List.foldr_nil,
      Regex.mem_seq_many, Regex.mem_seq_literal, Regex.mem_empty] at hm
    obtain ⟨number, _, _, hnumber, hleast, rfl, -, _, _, rfl, -, -, rfl, -⟩ := hm
    rw [List.isEmpty_iff] at hmore
    subst hmore
    exact ⟨number, isRun_iff.mpr ⟨hnumber, hleast⟩, rfl⟩
  · rintro ⟨number, hnumber, rfl⟩
    refine ⟨⟨number ++ [':'], [], []⟩, ?_, rfl⟩
    exact Regex.mem_seq_many.mpr ⟨number, [':'], [':'], hnumber.all, (isRun_iff.mp hnumber).2, rfl,
      rfl, Regex.mem_seq_literal.mpr ⟨[], [], rfl, rfl, Regex.mem_empty.mpr ⟨rfl, rfl, rfl⟩⟩⟩

/-- What `symbolRow` asks of the words of a line. -/
theorem symbolRow_eq_some {line : Text} {row : SymbolRow} : symbolRow tables line = some row
    ↔ ∃ number value size kind visibility shown words, IsRun tables.isDecimal number
      ∧ line.split = (number ++ [':']) :: ([value, size, kind, row.binding, visibility,
        row.sectionIndex, shown] ++ words)
      ∧ kind ≠ fileType ∧ kind ≠ sectionType ∧ shown.takeWhile (· != '@') = row.name := by
  unfold symbolRow
  constructor
  · intro h
    dsimp only at h
    split_ifs at h with hcond hkind
    obtain ⟨hlength, hnumber⟩ := hcond
    obtain ⟨number, hnumber, hword⟩ := numberPattern_iff.mp hnumber
    match hsplit : line.split, hlength with
    | word :: value :: size :: kind :: binding :: visibility :: index :: shown :: words, _ =>
        rw [hsplit] at h hkind hword
        obtain rfl := Option.some.inj h
        obtain rfl : word = number ++ [':'] := hword
        exact ⟨number, value, size, kind, visibility, shown, words, hnumber, rfl,
          fun heq => hkind (Or.inl heq), fun heq => hkind (Or.inr heq), rfl⟩
  · rintro ⟨number, value, size, kind, visibility, shown, words, hnumber, hsplit, hfile, hsection,
      hname⟩
    have hmatch := (@numberPattern_iff tables _).mpr ⟨number, hnumber, rfl⟩
    have hkind : ¬(kind = fileType ∨ kind = sectionType) := not_or.mpr ⟨hfile, hsection⟩
    rw [hsplit]
    dsimp only
    rw [if_pos ⟨by simp, hmatch⟩]
    refine (if_neg hkind).trans ?_
    change some (SymbolRow.mk row.binding row.sectionIndex (shown.takeWhile (· != '@'))) = some row
    rw [hname]

/-- The row that is read from a line is the one the line shows. -/
theorem symbolRow_eq_some_iff
    (hdecimal : ∀ c, tables.isDecimal c = true → Text.isSpace c = false) {line : Text}
    {row : SymbolRow} : symbolRow tables line = some row ↔ IsSymbolRow tables line row := by
  rw [symbolRow_eq_some]
  simp only [takeWhile_version]
  have hword : ∀ {number : Text}, IsRun tables.isDecimal number →
      IsRun (fun c => !Text.isSpace c) (number ++ [':']) := by
    intro number hnumber
    refine ⟨List.append_ne_nil_of_right_ne_nil _ (List.cons_ne_nil _ _), fun c hc => ?_⟩
    rcases List.mem_append.mp hc with hc | hc
    · rw [hdecimal c (hnumber.all c hc)]
      rfl
    · rw [List.mem_singleton.mp hc]
      rfl
  constructor
  · rintro ⟨number, value, size, kind, visibility, shown, words, hnumber, hsplit, hfile, hsection,
      hname⟩
    obtain ⟨lead, body, rfl, hlead, -, hbody, hwords⟩ := exists_of_split hsplit
    obtain ⟨rest, hcolumns, hrest⟩ := columns_of_split hwords hbody
    exact ⟨lead, number, body, value, size, kind, visibility, shown, rest,
      by rw [List.append_assoc]; rfl, hlead, hnumber, hcolumns, hrest, hfile, hsection, hname⟩
  · rintro ⟨lead, number, body, value, size, kind, visibility, shown, rest, rfl, hlead, hnumber,
      hcolumns, hrest, hfile, hsection, hname⟩
    refine ⟨number, value, size, kind, visibility, shown, rest.split, hnumber, ?_, hfile, hsection,
      hname⟩
    rw [← hcolumns.split hrest, ← split_word hlead (hword hnumber) (hcolumns.leaves hrest),
      List.append_assoc]
    rfl

/-! ## Sizes -/

theorem hexDigitValue_eq_zero {c : Char} (h : isHex c = true) : hexDigitValue c = 0 ↔ c = '0' := by
  have hrange := toNat_of_isHex h
  unfold hexDigitValue
  constructor
  · intro hzero
    refine Char.toNat_inj.mp ?_
    change c.toNat = 0x30
    split_ifs at hzero
    omega
  · rintro rfl
    rfl

theorem hexValue_eq_zero {t : Text} (h : ∀ c ∈ t, isHex c = true) :
    hexValue t = 0 ↔ ∀ c ∈ t, c = '0' := by
  have hfold : ∀ {t : Text} {n : Nat}, (∀ c ∈ t, isHex c = true) →
      (t.foldl (fun n c => n * 16 + hexDigitValue c) n = 0 ↔ n = 0 ∧ ∀ c ∈ t, c = '0') := by
    intro t
    induction t with
    | nil => simp
    | cons c t ih =>
        intro n h
        rw [List.foldl_cons, ih fun d hd => h d (List.mem_cons_of_mem c hd), List.forall_mem_cons,
          ← hexDigitValue_eq_zero (h c List.mem_cons_self), ← and_assoc]
        refine and_congr_left' ?_
        omega
  exact (hfold h).trans (and_iff_right rfl)

/-- A section is empty if its size has no digit but zeros. -/
theorem IsSectionRow.isEmpty_iff {line : Text} {row : SectionRow}
    (h : IsSectionRow tables line row) : row.isEmpty = false ↔ ∃ c ∈ row.size, c ≠ '0' := by
  obtain ⟨body, kind, address, offset, entrySize, rest, -, -, hhex, -⟩ := h
  have hsize : ∀ c ∈ row.size, isHex c = true := hhex row.size (by simp)
  rw [SectionRow.isEmpty, beq_eq_false_iff_ne, Ne, hexValue_eq_zero hsize]
  push Not
  rfl

end Rows

end LighttpdFuzz

import LighttpdFuzz.ElfEvidence

/-!
# Archive inspection keeps members apart

`readelf` prints a heading line before what it prints about each member of
an archive, and `inspect` cuts its output at these lines. A heading is
known by the path of the archive, taken literally, and by its place: it
fills a line. So a match is exactly a heading line (`mem_heading`), a text
without heading lines is not cut (`first_inside`), and the output is cut
into the texts of the members (`cut_printed`), whatever characters the
names consist of and however often a name occurs.

A text with the headers of two ELF files is refused by `parse_elf`
(`elfOutcome_two`), so a lost heading is an error and no evidence.
-/

namespace LighttpdFuzz

open Regex

/-! ## Heading lines -/

/-- The heading of a member; thin archives have square brackets. -/
def headingLine (path member : Text) (thin : Bool) : Text :=
  headingStart ++ path ++ if thin then '[' :: (member ++ [']']) else '(' :: (member ++ [')'])

/-- The number of the group that has the member's name. -/
def headingGroup (thin : Bool) : Nat := if thin then 2 else 1

def IsHeading (path line : Text) : Prop :=
  ∃ member thin, '\n' ∉ member ∧ line = headingLine path member thin

/-- `line` is one of the lines of `text`. -/
def HasLine (text line : Text) : Prop :=
  ∃ a b, text = a ++ line ++ b ∧ '\n' ∉ line ∧ (a = [] ∨ a.getLast? = some '\n')
    ∧ (b = [] ∨ b.head? = some '\n')

def NoHeading (path text : Text) : Prop := ∀ line, HasLine text line → ¬ IsHeading path line

section Headings

variable {path : Text} {prev : Option Char} {t taken rest : Text} {groups : List (Nat × Text)}

theorem mem_bracketed {index : Nat} {opening closing : Char} :
    ⟨taken, rest, groups⟩ ∈ (bracketed index opening closing).allMatches prev t
      ↔ ∃ member, '\n' ∉ member ∧ taken = opening :: (member ++ [closing])
        ∧ t = taken ++ rest ∧ groups = [(index, member)] := by
  change _ ∈ (seq (char _) (seq (group index _) (seq (char _) empty))).allMatches prev t ↔ _
  rw [mem_seq_char]
  constructor
  · rintro ⟨c, inner, t', hc, rfl, rfl, hinner⟩
    obtain ⟨member, _, _, _, _, hgroup, hclosing, rfl, rfl⟩ := mem_seq.mp hinner
    obtain ⟨_, hmany, rfl⟩ := mem_group.mp hgroup
    obtain ⟨rfl, hall, -, rfl⟩ := mem_many.mp hmany
    obtain ⟨c', hc', rfl, rfl, rfl⟩ := mem_char.mp (mem_seq_empty.mp hclosing)
    obtain rfl := beq_iff_eq.mp hc
    obtain rfl := beq_iff_eq.mp hc'
    refine ⟨member, fun hmem => bne_iff_ne.mp (hall '\n' hmem) rfl, rfl, ?_, rfl⟩
    rw [List.cons_append, List.append_assoc, List.singleton_append]
  · rintro ⟨member, hmember, rfl, rfl, rfl⟩
    refine ⟨opening, member ++ [closing], member ++ closing :: rest, beq_self_eq_true opening, ?_,
      rfl, mem_seq.mpr ⟨member, closing :: rest, [(index, member)], [closing], [], ?_, ?_, rfl,
        rfl⟩⟩
    · rw [List.cons_append, List.append_assoc, List.singleton_append]
    · refine mem_group.mpr ⟨[], mem_many.mpr ⟨rfl, ?_, Nat.zero_le _, rfl⟩, rfl⟩
      exact fun c hc => bne_iff_ne.mpr fun heq => hmember (heq ▸ hc)
    · exact mem_seq_empty.mpr (mem_char.mpr ⟨closing, beq_self_eq_true closing, rfl, rfl, rfl⟩)

/-- The two kinds of brackets. -/
theorem mem_brackets :
    ⟨taken, rest, groups⟩ ∈ (alt (bracketed 1 '(' ')') (bracketed 2 '[' ']')).allMatches prev t
      ↔ ∃ member thin, '\n' ∉ member
        ∧ taken = (if thin then '[' :: (member ++ [']']) else '(' :: (member ++ [')']))
        ∧ t = taken ++ rest ∧ groups = [(headingGroup thin, member)] := by
  rw [mem_alt, mem_bracketed, mem_bracketed]
  constructor
  · rintro (⟨member, h⟩ | ⟨member, h⟩)
    · exact ⟨member, false, h⟩
    · exact ⟨member, true, h⟩
  · rintro ⟨member, thin, h⟩
    cases thin with
    | false => exact .inl ⟨member, h⟩
    | true => exact .inr ⟨member, h⟩

/-- A match of the pattern is a heading that fills a line. -/
theorem mem_heading : ⟨taken, rest, groups⟩ ∈ (headingPattern path).allMatches prev t
    ↔ (prev = none ∨ prev = some '\n') ∧ t = taken ++ rest
      ∧ (rest = [] ∨ rest.head? = some '\n')
      ∧ ∃ member thin, '\n' ∉ member ∧ taken = headingLine path member thin
        ∧ groups = [(headingGroup thin, member)] := by
  change _ ∈ (seq lineStart (seq (literal _) (seq (alt _ _) (seq lineEnd empty)))).allMatches _ _
    ↔ _
  rw [mem_seq_lineStart, mem_seq_literal]
  refine and_congr_right fun _ => ?_
  constructor
  · rintro ⟨_, _, rfl, rfl, hmatch⟩
    obtain ⟨_, _, _, _, _, hbrackets, hclosing, rfl, rfl⟩ := mem_seq.mp hmatch
    obtain ⟨hend, rfl, rfl, rfl⟩ := mem_lineEnd.mp (mem_seq_empty.mp hclosing)
    obtain ⟨member, thin, hmember, rfl, rfl, rfl⟩ := mem_brackets.mp hbrackets
    refine ⟨?_, hend, member, thin, hmember, ?_, rfl⟩
    · rw [List.append_nil, List.append_assoc (headingStart ++ path)]
    · rw [List.append_nil, headingLine]
  · rintro ⟨rfl, hend, member, thin, hmember, rfl, rfl⟩
    refine ⟨_, _, by rw [headingLine, List.append_assoc], rfl, mem_seq.mpr ?_⟩
    exact ⟨_, rest, _, [], [], mem_brackets.mpr ⟨member, thin, hmember, rfl, rfl, rfl⟩,
      mem_seq_empty.mpr (mem_lineEnd.mpr ⟨hend, rfl, rfl, rfl⟩), (List.append_nil _).symm, rfl⟩

theorem headingLine_ne_nil (path member : Text) (thin : Bool) :
    headingLine path member thin ≠ [] := by
  rw [headingLine, List.append_assoc]
  nofun

theorem newline_notMem_headingLine {member : Text} {thin : Bool} (hpath : '\n' ∉ path)
    (hmember : '\n' ∉ member) : '\n' ∉ headingLine path member thin := by
  have hstart : '\n' ∉ headingStart := by decide
  cases thin <;> simp [headingLine, hstart, hpath, hmember]

theorem headingLine_injective {member member' : Text} {thin thin' : Bool}
    (h : headingLine path member thin = headingLine path member' thin') :
    member = member' ∧ thin = thin' := by
  have hbrackets := List.append_cancel_left h
  cases thin <;> cases thin' <;> simp_all

/-- The front of a text up to the end of a line. -/
theorem line_unique : ∀ {a a' b b' : Text}, '\n' ∉ a → '\n' ∉ a' →
    (b = [] ∨ b.head? = some '\n') → (b' = [] ∨ b'.head? = some '\n') → a ++ b = a' ++ b' → a = a'
  | [], [], _, _, _, _, _, _, _ => rfl
  | [], c :: a', b, b', _, ha', hb, _, h => by
      rw [List.nil_append] at h
      subst h
      rcases hb with hb | hb
      · cases hb
      · cases hb
        exact absurd List.mem_cons_self ha'
  | c :: a, [], b, b', ha, _, _, hb', h => by
      rw [List.nil_append] at h
      subst h
      rcases hb' with hb' | hb'
      · cases hb'
      · cases hb'
        exact absurd List.mem_cons_self ha
  | c :: a, c' :: a', b, b', ha, ha', hb, hb', h => by
      obtain ⟨rfl, htail⟩ := List.cons.inj h
      rw [line_unique (fun hm => ha (List.mem_cons_of_mem _ hm))
        (fun hm => ha' (List.mem_cons_of_mem _ hm)) hb hb' htail]

/-- The engine finds a heading where one is printed. -/
theorem first_heading {member : Text} {thin : Bool} (hpath : '\n' ∉ path)
    (hmember : '\n' ∉ member) (hprev : prev = none ∨ prev = some '\n')
    (hrest : rest = [] ∨ rest.head? = some '\n') :
    (headingPattern path).first prev (headingLine path member thin ++ rest)
      = some ⟨headingLine path member thin, rest, [(headingGroup thin, member)]⟩ := by
  refine first_eq_some_of_unique (mem_heading.mpr
    ⟨hprev, rfl, hrest, member, thin, hmember, rfl, rfl⟩) ?_
  rintro ⟨taken', rest', groups'⟩ h
  obtain ⟨-, hsplit, hrest', member', thin', hmember', rfl, rfl⟩ := mem_heading.mp h
  have hline := line_unique (newline_notMem_headingLine hpath hmember)
    (newline_notMem_headingLine hpath hmember') hrest hrest' hsplit
  obtain ⟨rfl, rfl⟩ := headingLine_injective hline
  rw [List.append_cancel_left hsplit]

/-- Inside a text without heading lines there is no match, unless it goes
on with an unfinished line. -/
theorem first_inside {text a₁ a₂ : Text} (hpath : '\n' ∉ path) (hno : NoHeading path text)
    (hend : t = [] ∨ text.getLast? = some '\n') (hsplit : text = a₁ ++ a₂)
    (hne : t = [] ∨ a₂ ≠ []) :
    (headingPattern path).first (a₁.getLast?.or prev) (a₂ ++ t) = none := by
  refine first_eq_none ?_
  rintro ⟨taken, rest, groups⟩ h
  obtain ⟨hprev, htaken, hrest, member, thin, hmember, rfl, -⟩ := mem_heading.mp h
  have hline := @newline_notMem_headingLine path member thin hpath hmember
  have hstart : a₁ = [] ∨ a₁.getLast? = some '\n' := by
    cases hlast : a₁.getLast? with
    | none => exact Or.inl (List.getLast?_eq_none_iff.mp hlast)
    | some c =>
        rw [hlast, Option.some_or] at hprev
        exact hprev.imp (fun h => by cases h) id
  -- the heading lies in the text
  obtain ⟨b, rfl, hb⟩ : ∃ b, a₂ = headingLine path member thin ++ b
      ∧ (b = [] ∨ b.head? = some '\n') := by
    by_cases ht : t = []
    · rw [ht, List.append_nil] at htaken
      exact ⟨rest, htaken, hrest⟩
    · have hne := hne.resolve_left ht
      have hlast : a₂.getLast? = some '\n' := by
        have hend := hend.resolve_left ht
        rw [hsplit, List.getLast?_append] at hend
        obtain ⟨c, hc⟩ := Option.ne_none_iff_exists'.mp (mt List.getLast?_eq_none_iff.mp hne)
        rw [hc] at hend ⊢
        exact hend
      rcases List.append_eq_append_iff.mp htaken with ⟨b, hb, -⟩ | ⟨b, hb, hrest'⟩
      · have hmem : '\n' ∈ a₂ := List.mem_of_getLast? hlast
        rw [hb] at hline
        exact absurd (List.mem_append_left b hmem) hline
      · refine ⟨b, hb, ?_⟩
        cases b with
        | nil =>
            rw [List.append_nil] at hb
            rw [hb] at hlast
            exact absurd (List.mem_of_getLast? hlast) hline
        | cons c b =>
            rw [hrest'] at hrest
            exact hrest.imp (fun h => by cases h) id
  exact hno _ ⟨a₁, b, by rw [hsplit, List.append_assoc], hline, hstart, hb⟩
    ⟨member, thin, hmember, rfl⟩

end Headings

/-! ## Printed archives -/

/-- A member with what `readelf` prints about it. -/
structure ArchiveMember where
  name : Text
  thin : Bool
  text : Text

/-- The output about the members: a heading line and a text for each. The
output may end within the last text, or with a heading. -/
inductive Printed (path : Text) : List ArchiveMember → Text → Prop
  | nil : Printed path [] []
  | bare {member : ArchiveMember} : '\n' ∉ member.name → member.text = [] →
      Printed path [member] (headingLine path member.name member.thin)
  | last {member : ArchiveMember} : '\n' ∉ member.name → NoHeading path member.text →
      Printed path [member] (headingLine path member.name member.thin ++ '\n' :: member.text)
  | cons {member : ArchiveMember} {members : List ArchiveMember} {stdout : Text} :
      '\n' ∉ member.name → NoHeading path member.text →
      (member.text = [] ∨ member.text.getLast? = some '\n') → Printed path members stdout →
      Printed path (member :: members)
        (headingLine path member.name member.thin ++ '\n' :: (member.text ++ stdout))

section Cut

variable {tables : CharTables} {path : Text}

theorem splitlines_newline (text : Text) : Text.splitlines ('\n' :: text) = [] :: text.splitlines :=
  rfl

/-- An empty line is no row. -/
theorem addLine_nil (s : ElfState) : s.addLine tables [] = s := by
  have hsection : sectionRow tables [] = none := rfl
  have hsymbol : symbolRow tables [] = none := rfl
  have hrel : (relPattern tables).first none [] = none := rfl
  rw [ElfState.addLine, hsection, hsymbol, ElfState.addHeader, hrel, if_neg (by decide)]
  simp

/-- The end of the heading line adds nothing to a text. -/
theorem elfOutcome_newline (text : Text) :
    elfOutcome tables ('\n' :: text) = elfOutcome tables text := by
  rw [elfOutcome, elfOutcome, parseElf, parseElf, elfState, elfState, splitlines_newline,
    List.foldl_cons, addLine_nil]

theorem noHeading_nil : NoHeading path [] := by
  rintro line ⟨a, b, hsplit, -⟩ ⟨member, thin, -, rfl⟩
  have hnil : headingLine path member thin = [] := by
    have hlen := congrArg List.length hsplit
    rw [List.length_append, List.length_append, List.length_nil] at hlen
    exact List.length_eq_zero_iff.mp (by omega)
  exact headingLine_ne_nil path member thin hnil

theorem NoHeading.newline {text : Text} (h : NoHeading path text) :
    NoHeading path ('\n' :: text) := by
  rintro line ⟨a, b, hsplit, hline, ha, hb⟩ hheading
  cases a with
  | nil =>
      obtain ⟨member, thin, -, rfl⟩ := hheading
      rw [headingLine, List.append_assoc] at hsplit
      exact absurd (List.cons.inj hsplit).1 (by decide)
  | cons c a =>
      rw [List.append_assoc, List.cons_append] at hsplit
      obtain ⟨rfl, htext⟩ := List.cons.inj hsplit
      rw [← List.append_assoc] at htext
      refine h line ⟨a, b, htext, hline, ?_, hb⟩ hheading
      rcases ha with ha | ha
      · cases ha
      · rw [List.getLast?_cons] at ha
        cases hlast : a.getLast? with
        | none => exact Or.inl (List.getLast?_eq_none_iff.mp hlast)
        | some c =>
            rw [hlast] at ha
            exact Or.inr ha

theorem cut_text {text : Text} (hpath : '\n' ∉ path) (hno : NoHeading path text)
    (prev : Option Char) : (headingPattern path).cut prev text = (text, []) := by
  refine cut_none (search_none fun a₁ a₂ hsplit => ?_)
  have h := @first_inside path prev [] text a₁ a₂ hpath hno (Or.inl rfl) hsplit (Or.inl rfl)
  rwa [List.append_nil] at h

/-- Where a heading follows a text, the text ends and the member's begins. -/
theorem cut_heading {text member after : Text} {thin : Bool} {prev : Option Char}
    (hpath : '\n' ∉ path) (hmember : '\n' ∉ member) (hno : NoHeading path text)
    (hend : text = [] ∨ text.getLast? = some '\n')
    (hprev : text.getLast?.or prev = none ∨ text.getLast?.or prev = some '\n')
    (hafter : after = [] ∨ after.head? = some '\n') :
    ∃ prev' m, headingMember m = member
      ∧ (headingPattern path).cut prev (text ++ (headingLine path member thin ++ after))
        = (text, (m, ((headingPattern path).cut prev' after).1)
          :: ((headingPattern path).cut prev' after).2) := by
  have hsearch := search_append (r := headingPattern path) (fun a₁ a₂ hsplit hne =>
    @first_inside path prev (headingLine path member thin ++ after) text a₁ a₂ hpath hno
      (Or.inr (hend.resolve_left fun h => by
        rw [h] at hsplit
        exact hne (List.append_eq_nil_iff.mp hsplit.symm).2)) hsplit (Or.inr hne))
    (first_heading hpath hmember hprev hafter)
  refine ⟨_, _, ?_, cut_some hsearch ?_⟩
  · cases thin <;> rfl
  · have hpos := List.length_pos_iff.mpr (headingLine_ne_nil path member thin)
    simp only [List.length_append]
    omega

/-- The output is cut into the texts of its members, one per heading. -/
theorem cut_printed {members : List ArchiveMember} {stdout : Text} (hpath : '\n' ∉ path)
    (h : Printed path members stdout) : ∀ {text : Text} {prev : Option Char},
    NoHeading path text →
    (stdout = [] ∨ (text = [] ∨ text.getLast? = some '\n')
      ∧ (text.getLast?.or prev = none ∨ text.getLast?.or prev = some '\n')) →
    ∃ pieces, (headingPattern path).cut prev (text ++ stdout) = (text, pieces)
      ∧ memberUnits tables pieces
        = members.map fun member => ⟨member.name, elfOutcome tables member.text⟩ := by
  induction h with
  | nil =>
      intro text prev hno _
      rw [List.append_nil]
      exact ⟨[], cut_text hpath hno prev, rfl⟩
  | @bare member hmember htext =>
      intro text prev hno hplace
      obtain ⟨hend, hprev⟩ := hplace.resolve_left (headingLine_ne_nil path _ _)
      obtain ⟨prev', m, hname, hcut⟩ :=
        @cut_heading path text member.name [] member.thin prev hpath hmember hno hend hprev
          (Or.inl rfl)
      rw [List.append_nil, cut_text hpath noHeading_nil] at hcut
      refine ⟨_, hcut, ?_⟩
      rw [memberUnits, List.map_singleton, List.map_singleton, hname, htext]
  | @last member hmember hmembertext =>
      intro text prev hno hplace
      obtain ⟨hend, hprev⟩ := hplace.resolve_left (List.append_ne_nil_of_left_ne_nil
        (headingLine_ne_nil path _ _) _)
      obtain ⟨prev', m, hname, hcut⟩ :=
        @cut_heading path text member.name ('\n' :: member.text) member.thin prev hpath hmember hno
          hend hprev (Or.inr rfl)
      rw [cut_text hpath hmembertext.newline] at hcut
      refine ⟨_, hcut, ?_⟩
      rw [memberUnits, List.map_singleton, List.map_singleton, hname, elfOutcome_newline]
  | @cons member members stdout hmember hmembertext hmemberend _ ih =>
      intro text prev hno hplace
      obtain ⟨hend, hprev⟩ := hplace.resolve_left (List.append_ne_nil_of_left_ne_nil
        (headingLine_ne_nil path _ _) _)
      obtain ⟨prev', m, hname, hcut⟩ :=
        @cut_heading path text member.name ('\n' :: (member.text ++ stdout)) member.thin prev hpath
          hmember hno hend hprev (Or.inr rfl)
      have hlast : ('\n' :: member.text).getLast? = some '\n' := by
        rw [List.getLast?_cons]
        rcases hmemberend with hnil | hlast
        · rw [hnil]
          rfl
        · rw [hlast]
          rfl
      obtain ⟨pieces, hrest, hunits⟩ := @ih ('\n' :: member.text) prev' hmembertext.newline
        (Or.inr ⟨Or.inr hlast, Or.inr (by rw [hlast]; rfl)⟩)
      rw [List.cons_append] at hrest
      rw [hrest] at hcut
      refine ⟨_, hcut, ?_⟩
      rw [memberUnits, List.map_cons, List.map_cons, hname, elfOutcome_newline]
      exact congrArg _ hunits

end Cut

/-! ## Two files in one text -/

section Two

variable {tables : CharTables}

theorem headers_addSection (s : ElfState) (row : SectionRow) :
    (s.addSection row).headers = s.headers := by
  unfold ElfState.addSection
  split <;> split <;> rfl

theorem headers_addSymbol (s : ElfState) (row : SymbolRow) :
    (s.addSymbol row).headers = s.headers := by
  unfold ElfState.addSymbol
  split
  · rfl
  · split <;> rfl

theorem headers_addLine (s : ElfState) (line : Text) :
    (s.addLine tables line).headers = s.headers + if line = elfHeader then 1 else 0 := by
  have hheader : (s.addHeader tables line).headers
      = s.headers + if line = elfHeader then 1 else 0 := by
    unfold ElfState.addHeader
    split <;> rfl
  unfold ElfState.addLine
  cases sectionRow tables line <;> cases symbolRow tables line <;>
    simp only [Option.elim, headers_addSection, headers_addSymbol, hheader]

theorem headers_addLines : ∀ (lines : List Text) (s : ElfState),
    (lines.foldl (.addLine tables) s).headers = s.headers + lines.count elfHeader
  | [], s => rfl
  | line :: lines, s => by
      rw [List.foldl_cons, headers_addLines lines, headers_addLine, List.count_cons, Nat.add_assoc,
        Nat.add_comm (lines.count elfHeader)]
      simp only [beq_iff_eq]

theorem splitlinesFrom_cons {line t : Text} {c : Char} (h : ¬ (c = '\r' ∧ t.head? = some '\n')) :
    Text.splitlinesFrom line (c :: t)
      = if Text.isLineBoundary c then line :: Text.splitlinesFrom [] t
        else Text.splitlinesFrom (line ++ [c]) t := by
  rw [Text.splitlinesFrom]
  rintro t' rfl rfl
  exact h ⟨rfl, rfl⟩

/-- Behind a text, a line end makes a pair only with a last `'\r'`. -/
theorem carriageReturn_or_alone {c : Char} {s : Text}
    (hpair : ∀ s', c = '\r' → s = '\n' :: s' → False) :
    (c = '\r' ∧ s = []) ∨ ∀ t : Text, ¬ (c = '\r' ∧ (s ++ '\n' :: t).head? = some '\n') := by
  cases s with
  | nil =>
      by_cases hc : c = '\r'
      · exact .inl ⟨hc, rfl⟩
      · exact .inr fun t h => hc h.1
  | cons c' s =>
      refine .inr fun t h => hpair s h.1 ?_
      rw [Option.some.inj h.2]

/-- A text that ends a line and what follows it. -/
theorem splitlinesFrom_append (t s line : Text) :
    Text.splitlinesFrom line (s ++ '\n' :: t)
      = Text.splitlinesFrom line (s ++ ['\n']) ++ t.splitlines := by
  induction line, s using Text.splitlinesFrom.induct with
  | case1 line | case2 line => rfl
  | case3 line s ih =>
      rw [List.cons_append, List.cons_append, List.cons_append, List.cons_append,
        Text.splitlinesFrom, Text.splitlinesFrom, ih, List.cons_append]
  | case4 line c s hpair hboundary ih =>
      rcases carriageReturn_or_alone hpair with ⟨rfl, rfl⟩ | halone
      · rfl
      · rw [List.cons_append, List.cons_append, splitlinesFrom_cons (halone t),
          splitlinesFrom_cons (halone []), if_pos hboundary, if_pos hboundary, ih, List.cons_append]
  | case5 line c s hpair hboundary ih =>
      rcases carriageReturn_or_alone hpair with ⟨rfl, rfl⟩ | halone
      · rfl
      · rw [List.cons_append, List.cons_append, splitlinesFrom_cons (halone t),
          splitlinesFrom_cons (halone []), if_neg hboundary, if_neg hboundary, ih]

theorem splitlines_append {s t : Text} (h : s = [] ∨ s.getLast? = some '\n') :
    (s ++ t).splitlines = s.splitlines ++ t.splitlines := by
  rcases h with rfl | h
  · rfl
  · obtain ⟨s, rfl⟩ := List.getLast?_eq_some_iff.mp h
    rw [List.append_assoc]
    exact splitlinesFrom_append t s []

/-- A text with the headers of two ELF files gives no evidence. -/
theorem elfOutcome_two {first between second : Text} (hfirst : elfHeader ∈ first.splitlines)
    (hfirstEnd : first.getLast? = some '\n')
    (hbetween : between = [] ∨ between.getLast? = some '\n')
    (hsecond : elfHeader ∈ second.splitlines) :
    elfOutcome tables (first ++ (between ++ second)) = .error notOneElfFile := by
  have hlines : (first ++ (between ++ second)).splitlines
      = first.splitlines ++ (between.splitlines ++ second.splitlines) := by
    rw [splitlines_append (Or.inr hfirstEnd), splitlines_append hbetween]
  have hcount : (elfState tables (first ++ (between ++ second))).headers ≠ 1 := by
    have h₁ := List.count_pos_iff.mpr hfirst
    have h₂ := List.count_pos_iff.mpr hsecond
    rw [elfState, headers_addLines, hlines, List.count_append, List.count_append]
    simp only [ElfState.start]
    omega
  rw [elfOutcome, parseElf, ElfState.outcome, if_pos hcount]

end Two

/-! ## The units of an archive -/

/-- A unit about the whole file that is an error. -/
def IsFileError (unit : BuildUnit) : Prop := unit.member = [] ∧ unit.isError = true

/-- The units of the members. -/
def archiveUnits (tables : CharTables) (members : List ArchiveMember) : List BuildUnit :=
  members.map fun member => ⟨member.name, elfOutcome tables member.text⟩

theorem diagnostic_ne_nil {result : ReadelfResult} :
    result.diagnostic ≠ [] ↔ result.returncode ≠ 0 ∨ result.stderr.strip ≠ [] := by
  unfold ReadelfResult.diagnostic
  split
  · next h => exact iff_of_true nofun h
  · next h => exact iff_of_false (fun hne => hne rfl) h

/-- An archive has a unit for each member, from that member's text alone,
and one error for the file if `readelf` was not content; it never has no
unit. Two files in one text are an error. -/
theorem inspect_archive (tables : CharTables) (path preamble printed : Text)
    (members : List ArchiveMember) (result : ReadelfResult) (hpath : '\n' ∉ path)
    (hpreamble : NoHeading path preamble)
    (hend : preamble = [] ∨ preamble.getLast? = some '\n') (hprinted : Printed path members printed)
    (hstdout : result.stdout = preamble ++ printed) :
    ((result.returncode ≠ 0 ∨ result.stderr.strip ≠ []) →
        ∃ error, IsFileError error
          ∧ inspect tables path .archive result = archiveUnits tables members ++ [error])
      ∧ (¬ (result.returncode ≠ 0 ∨ result.stderr.strip ≠ []) → members ≠ [] →
        inspect tables path .archive result = archiveUnits tables members)
      ∧ (¬ (result.returncode ≠ 0 ∨ result.stderr.strip ≠ []) → members = [] →
        ∃ error, IsFileError error ∧ inspect tables path .archive result = [error])
      ∧ inspect tables path .archive result ≠ []
      ∧ ∀ member ∈ members, ∀ first between second,
        member.text = first ++ (between ++ second) →
        elfHeader ∈ first.splitlines → first.getLast? = some '\n' →
        (between = [] ∨ between.getLast? = some '\n') → elfHeader ∈ second.splitlines →
        ⟨member.name, .error notOneElfFile⟩ ∈ inspect tables path .archive result := by
  obtain ⟨pieces, hcut, hunits⟩ := @cut_printed tables path members printed hpath hprinted
    preamble none hpreamble (Or.inr ⟨hend, hend.imp (fun h => by rw [h]; rfl)
      (fun h => by rw [h]; rfl)⟩)
  have hinspect : inspect tables path .archive result
      = if result.diagnostic ≠ [] then
          archiveUnits tables members ++ [⟨[], .error (incompleteArchive result.diagnostic)⟩]
        else if archiveUnits tables members = [] then [⟨[], .error emptyArchive⟩]
        else archiveUnits tables members := by
    rw [inspect, if_neg (by decide), hstdout, hcut, hunits, archiveUnits]
  have hnil : archiveUnits tables members = [] ↔ members = [] := List.map_eq_nil_iff
  have hmem : ∀ unit ∈ archiveUnits tables members,
      unit ∈ inspect tables path .archive result := by
    intro unit hunit
    rw [hinspect]
    split_ifs with hdiagnostic hempty
    · exact List.mem_append_left _ hunit
    · rw [hempty] at hunit
      cases hunit
    · exact hunit
  rw [← diagnostic_ne_nil]
  refine ⟨fun hdiagnostic => ⟨⟨[], .error (incompleteArchive result.diagnostic)⟩, ⟨rfl, rfl⟩,
      hinspect.trans (if_pos hdiagnostic)⟩,
    fun hquiet hne => ?_, fun hquiet hempty => ⟨⟨[], .error emptyArchive⟩, ⟨rfl, rfl⟩, ?_⟩, ?_,
    fun member hmember first between second htext hfirst hfirstEnd hbetween hsecond => ?_⟩
  · rw [hinspect, if_neg hquiet, if_neg (mt hnil.mp hne)]
  · rw [hinspect, if_neg hquiet, if_pos (hnil.mpr hempty)]
  · rw [hinspect]
    split_ifs with hdiagnostic hempty
    · exact List.append_ne_nil_of_right_ne_nil _ (List.cons_ne_nil _ _)
    · exact List.cons_ne_nil _ _
    · exact hempty
  · have houtcome := @elfOutcome_two tables first between second hfirst hfirstEnd hbetween hsecond
    refine hmem _ (List.mem_map.mpr ⟨member, hmember, ?_⟩)
    rw [htext, houtcome]

theorem noHeading_of_brackets {path text : Text} (hround : '(' ∉ text) (hsquare : '[' ∉ text) :
    NoHeading path text := by
  rintro line ⟨a, b, rfl, -⟩ ⟨member, thin, -, rfl⟩
  cases thin with
  | false => exact hround (by simp [headingLine])
  | true => exact hsquare (by simp [headingLine])

/-- The path has characters that are special in patterns. -/
def demoPath : Text := "/x+(1).a".toList

/-- Two members of one name; a heading was lost in the second text. -/
def demoMembers : List ArchiveMember :=
  [⟨"m).o".toList, false, "ELF Header:\n".toList⟩,
    ⟨"m).o".toList, true, "ELF Header:\nELF Header:\n".toList⟩]

def demoPrinted : Text :=
  "File: /x+(1).a(m).o)\nELF Header:\nFile: /x+(1).a[m).o]\nELF Header:\nELF Header:\n".toList

theorem printed_demo : Printed demoPath demoMembers demoPrinted :=
  .cons (by decide) (noHeading_of_brackets (by decide) (by decide)) (Or.inr (by decide))
    (.last (by decide) (noHeading_of_brackets (by decide) (by decide)))

theorem inspect_archive_demo :
    ⟨"m).o".toList, .error notOneElfFile⟩
      ∈ inspect demoTables demoPath .archive ⟨'\n' :: demoPrinted, [], 0⟩ :=
  (inspect_archive demoTables demoPath ['\n'] demoPrinted demoMembers
    ⟨'\n' :: demoPrinted, [], 0⟩ (by decide) (noHeading_of_brackets (by decide) (by decide))
    (Or.inr rfl) printed_demo rfl).2.2.2.2
    ⟨"m).o".toList, true, "ELF Header:\nELF Header:\n".toList⟩
    (List.mem_cons_of_mem _ (List.mem_singleton_self _)) "ELF Header:\n".toList []
    "ELF Header:\n".toList rfl (by decide) rfl (Or.inl rfl) (by decide)

end LighttpdFuzz

import LighttpdFuzz.ReportPipeline

/-!
# When a repeated report is dropped

The pipeline joins the lines of all logs and cuts the text at separator
lines. Where every log begins with a separator, the cuts fall between the
logs and the reports are those of the logs (`reportsOf_flatten`), so a log
whose reports are known adds nothing. Lines in front of the first separator
belong to the last report of the log before: a log that begins with such
lines changes that report (`reportsOf_fresh_append`), and it is changed
itself by a log that is put before it.

The file can only grow when reports are added and none is lost
(`known_of_same_file`), so a new report or a new runtime error shows in the
file.
-/

namespace LighttpdFuzz

open LineTools

/-! ## Sorting -/

theorem sortUnique_congr {a b : List Line} (h : ∀ line, line ∈ a ↔ line ∈ b) :
    sortUnique a = sortUnique b := by
  have hsorted : ∀ lines : List Line, (sortUnique lines).Pairwise (· ≤ ·) := by
    intro lines
    refine (@List.pairwise_mergeSort Line (fun a b => decide (a ≤ b)) ?_ ?_ _).imp of_decide_eq_true
    · intro x y z hxy hyz
      exact decide_eq_true ((of_decide_eq_true hxy).trans (of_decide_eq_true hyz))
    · intro x y
      rcases le_total x y with hle | hle <;> simp [hle]
  have hperm : (sortUnique a).Perm (sortUnique b) := by
    rw [List.perm_ext_iff_of_nodup (nodup_sortUnique a) (nodup_sortUnique b)]
    intro line
    rw [mem_sortUnique, mem_sortUnique, h]
  exact hperm.eq_of_pairwise (fun x y _ _ hxy hyx => le_antisymm hxy hyx) (hsorted a) (hsorted b)

/-- What is added to the lines is added to what is made of them. -/
theorem length_flatMap_sortUnique (f : Line → List Line) {a b : List Line}
    (h : ∀ line ∈ a, line ∈ b) :
    ((sortUnique b).flatMap f).length = ((sortUnique a).flatMap f).length
      + (((sortUnique b).filter fun line => !decide (line ∈ a)).flatMap f).length := by
  have hold : ((sortUnique b).filter fun line => decide (line ∈ a)).Perm (sortUnique a) := by
    rw [List.perm_ext_iff_of_nodup ((nodup_sortUnique b).filter _) (nodup_sortUnique a)]
    intro line
    rw [List.mem_filter, mem_sortUnique, mem_sortUnique, decide_eq_true_eq]
    exact ⟨And.right, fun hline => ⟨h line hline, hline⟩⟩
  have hboth := (List.filter_append_perm (fun line => decide (line ∈ a))
    (sortUnique b)).flatMap_right f
  rw [← hboth.length_eq, List.flatMap_append, List.length_append, (hold.flatMap_right f).length_eq]

theorem expandReport_ne_nil (report : Line) : expandReport report ≠ [] :=
  List.splitOn_ne_nil '\n' _

/-- A file that stays the same although lines are added got no new ones. -/
theorem known_of_same_file {reports reports' errors errors' : List Line}
    (hreports : ∀ report ∈ reports, report ∈ reports') (herrors : ∀ line ∈ errors, line ∈ errors')
    (hsame : (sortUnique reports').flatMap expandReport ++ sortUnique errors'
      = (sortUnique reports).flatMap expandReport ++ sortUnique errors) :
    (∀ report ∈ reports', report ∈ reports) ∧ ∀ line ∈ errors', line ∈ errors := by
  have hlen := congrArg List.length hsame
  rw [List.length_append, List.length_append,
    length_flatMap_sortUnique expandReport hreports] at hlen
  have hgrown := length_flatMap_sortUnique (fun line => [line]) herrors
  simp only [List.flatMap_singleton'] at hgrown
  constructor
  · intro report hreport
    by_contra hnew
    have hmem : report ∈ (sortUnique reports').filter fun r => !decide (r ∈ reports) :=
      List.mem_filter.mpr ⟨mem_sortUnique.mpr hreport, by rw [decide_eq_false hnew]; rfl⟩
    have hpos : 0 < (((sortUnique reports').filter fun r => !decide (r ∈ reports)).flatMap
        expandReport).length := by
      obtain ⟨line, hline⟩ := List.exists_mem_of_ne_nil _ (expandReport_ne_nil report)
      exact List.length_pos_of_mem (List.mem_flatMap.mpr ⟨report, hmem, hline⟩)
    omega
  · intro line hline
    by_contra hnew
    have hmem : line ∈ (sortUnique errors').filter fun r => !decide (r ∈ errors) :=
      List.mem_filter.mpr ⟨mem_sortUnique.mpr hline, by rw [decide_eq_false hnew]; rfl⟩
    have hpos := List.length_pos_of_mem hmem
    omega

/-! ## Cleaning line by line -/

theorem cleanText_splitsAt : SplitsAt '#' cleanText :=
  (Rule.splitsAt (by decide)).comp ((Rewrite.splitsAt (by decide)).comp
    ((Rewrite.splitsAt (by decide)).comp ((Rule.splitsAt (by decide)).comp
      ((Rewrite.splitsAt (by decide)).comp ((Rule.splitsAt (by decide)).comp
        (Rewrite.splitsAt (by decide)))))))

/-- The reports in cleaned lines. -/
def cleanReports (lines : List Line) : List Line :=
  if lines = [] then [] else cutReports (hashes.intercalate lines)

theorem reportsOf_eq (lines : List Line) : reportsOf lines = cleanReports (cleanLines lines) := by
  have hclean : cleanText (hashes.intercalate (lines.filter keepsLine))
      = hashes.intercalate (cleanLines lines) := cleanText_splitsAt.intercalate 3 _
  have hnil : cleanLines lines = [] ↔ lines.filter keepsLine = [] := List.map_eq_nil_iff
  rw [reportsOf, cleanReports, hclean]
  simp only [hnil]

@[simp] theorem cleanLines_append (a b : List Line) :
    cleanLines (a ++ b) = cleanLines a ++ cleanLines b := by
  rw [cleanLines, cleanLines, cleanLines, List.filter_append, List.map_append]

/-! ## Cutting between the logs -/

/-- The log keeps no line, or first a separator line. -/
def StartsReport (lines : List Line) : Prop :=
  ∀ line ∈ (cleanLines lines).head?, separatorLine <+: line

theorem StartsReport.append {a b : List Line} (ha : StartsReport a) (hb : StartsReport b) :
    StartsReport (a ++ b) := by
  intro line hline
  rw [cleanLines_append, List.head?_append] at hline
  cases hhead : (cleanLines a).head? with
  | none =>
      rw [hhead] at hline
      exact hb line hline
  | some first =>
      rw [hhead] at hline
      exact ha line (hhead ▸ hline)

theorem cutRule_separator (b : Line) :
    cutRule.apply (separatorLine ++ b) = separatorLine ++ cutRule.apply b := by
  refine Rewrite.apply_append (fun d hd hlead => ?_) b
  have hsign := List.eq_of_mem_replicate (show d ∈ List.replicate 65 '=' from hd)
  rw [hsign] at hlead
  exact absurd hlead (by decide)

theorem cutReports_append (a b : Line) :
    cutReports (a ++ (hashes ++ (separatorLine ++ b)))
      = cutReports a ++ cutReports (separatorLine ++ b) := by
  have hcut : cutRule.apply (a ++ (hashes ++ (separatorLine ++ b)))
      = cutRule.apply a ++ '\n' :: cutRule.apply (separatorLine ++ b) := by
    rw [← List.append_assoc hashes, cutRule_separator]
    exact Rewrite.literal_append (by decide +kernel) a b
  rw [cutReports, hcut, List.splitOn_append_cons_self, List.map_append]
  rfl

theorem cleanReports_append {a b : List Line} (h : ∀ line ∈ b.head?, separatorLine <+: line) :
    cleanReports (a ++ b) = cleanReports a ++ cleanReports b := by
  cases b with
  | nil => rw [List.append_nil, show cleanReports [] = [] from rfl, List.append_nil]
  | cons line b =>
      obtain ⟨rest, rfl⟩ := h line rfl
      have hstarts : ∃ t,
          hashes.intercalate ((separatorLine ++ rest) :: b) = separatorLine ++ t := by
        cases b with
        | nil => exact ⟨rest, List.intercalate_singleton⟩
        | cons line' b =>
            rw [List.intercalate_cons_cons, List.append_assoc, List.append_assoc]
            exact ⟨_, rfl⟩
      obtain ⟨t, ht⟩ := hstarts
      by_cases ha : a = []
      · rw [ha, List.nil_append, show cleanReports [] = [] from rfl, List.nil_append]
      · rw [cleanReports, cleanReports, cleanReports, if_neg ha, if_neg (List.cons_ne_nil _ _),
          if_neg (List.append_ne_nil_of_left_ne_nil ha _),
          intercalate_append hashes (List.cons_ne_nil _ _) ha, ht, cutReports_append]

theorem reportsOf_append {a b : List Line} (h : StartsReport b) :
    reportsOf (a ++ b) = reportsOf a ++ reportsOf b := by
  rw [reportsOf_eq, reportsOf_eq, reportsOf_eq, cleanLines_append, cleanReports_append h]

/-- Logs that begin with separators have their own reports. -/
theorem reportsOf_flatten : ∀ {logs : List (List Line)}, (∀ log ∈ logs, StartsReport log) →
    reportsOf logs.flatten = logs.flatMap reportsOf ∧ StartsReport logs.flatten
  | [], _ => ⟨rfl, nofun⟩
  | log :: logs, h => by
      obtain ⟨ih, hstarts⟩ :=
        reportsOf_flatten fun log' hlog => h log' (List.mem_cons_of_mem _ hlog)
      rw [List.flatten_cons, List.flatMap_cons, reportsOf_append hstarts, ih]
      exact ⟨rfl, (h log List.mem_cons_self).append hstarts⟩

/-! ## Fresh logs -/

/-- A separator line like no other, for `n` large enough. -/
def freshLine (n : Nat) : Line := separatorLine ++ List.replicate n 'x'

def freshLog (n : Nat) : List Line := [freshLine n]

section Fresh

variable {n : Nat}

theorem mem_freshLine {d : Char} (hd : d ∈ freshLine n) : d ∈ ['=', 'x'] := by
  rcases List.mem_append.mp hd with hd | hd
  · rw [List.eq_of_mem_replicate (show d ∈ List.replicate 65 '=' from hd)]
    exact List.mem_cons_self
  · rw [List.eq_of_mem_replicate hd]
    exact List.mem_cons_of_mem _ List.mem_cons_self

theorem length_freshLine (n : Nat) : n < (freshLine n).length := by
  rw [freshLine, List.length_append, List.length_replicate]
  have hlen : separatorLine.length = 65 := by decide +kernel
  omega

theorem cleanText_freshLine (n : Nat) : cleanText (freshLine n) = freshLine n := by
  have hmem : ∀ d ∈ freshLine n, d ∈ ['=', 'x'] := fun d => mem_freshLine
  rw [cleanText, Rewrite.apply_of_foreign (by decide) hmem, Rule.apply_of_foreign (by decide) hmem,
    Rewrite.apply_of_foreign (by decide) hmem, Rule.apply_of_foreign (by decide) hmem,
    Rewrite.apply_of_foreign (by decide) hmem, Rewrite.apply_of_foreign (by decide) hmem,
    Rule.apply_of_foreign (by decide) hmem]

/-- A hexadecimal dump has a digit. -/
theorem hexDump_search {line : Line} (h : ∀ d ∈ line, isLowerHex d = false) :
    hexDumpPattern.search none line = none := by
  refine Regex.search_none fun a₁ a₂ ha => Regex.first_eq_none ?_
  rintro ⟨taken, rest, groups⟩ hm
  rw [hexDumpPattern, Regex.times, List.replicate_succ, Regex.seqAll, List.foldr_cons,
    Regex.mem_seq] at hm
  obtain ⟨taken₁, rest₁, groups₁, _, _, hone, -⟩ := hm
  simp only [Regex.seqAll, List.foldr, Regex.mem_seq] at hone
  obtain ⟨_, rest₂, _, _, _, hany, ⟨digits, rest₃, _, _, _, hdigits, -⟩, -⟩ := hone
  obtain ⟨rfl, -⟩ := Regex.mem_many.mp (Regex.mem_many_of_mem hany)
  obtain ⟨rfl, hall, hleast, -⟩ := Regex.mem_many.mp (Regex.mem_many_of_mem hdigits)
  obtain ⟨d, digits, rfl⟩ := List.exists_cons_of_length_pos (show 0 < digits.length by omega)
  have hd := hall d List.mem_cons_self
  rw [h d (by rw [ha]; simp)] at hd
  cases hd

theorem caret_search {line : Line} (h : '^' ∉ line) : caretPattern.search none line = none := by
  refine Regex.search_none fun a₁ a₂ ha => Regex.first_eq_none ?_
  rintro ⟨taken, rest, groups⟩ hm
  simp only [caretPattern, Regex.seqAll, List.foldr, Regex.mem_seq, Regex.mem_char,
    beq_iff_eq] at hm
  obtain ⟨_, rest₁, _, _, _, hspaces, ⟨_, _, _, _, _, ⟨c, rfl, rfl, -⟩, -⟩, -⟩ := hm
  obtain ⟨rfl, -⟩ := Regex.mem_many.mp (Regex.mem_many_of_mem hspaces)
  exact h (by rw [ha]; simp)

theorem keepsLine_freshLine (n : Nat) : keepsLine (freshLine n) = true := by
  have hforeign : ∀ d, d ∈ freshLine n → d ≠ ' ' ∧ isLowerHex d = false ∧ d ≠ '^' := by
    intro d hd
    have hmem := mem_freshLine hd
    rw [List.mem_cons, List.mem_singleton] at hmem
    rcases hmem with rfl | rfl <;> decide
  have htexts : (droppedTexts.any fun text => decide (text <:+: freshLine n)) = false := by
    rw [List.any_eq_false]
    intro text htext hinfix
    have hspace : droppedTexts.all (fun text => text.contains ' ') = true := by decide +kernel
    have hmem := List.contains_iff_mem.mp (List.all_eq_true.mp hspace text htext)
    exact (hforeign ' ' ((of_decide_eq_true hinfix).subset hmem)).1 rfl
  rw [keepsLine, htexts, hexDump_search fun d hd => (hforeign d hd).2.1,
    caret_search fun hd => (hforeign '^' hd).2.2 rfl]
  rfl

theorem cleanLines_freshLog (n : Nat) : cleanLines (freshLog n) = [freshLine n] := by
  rw [cleanLines, freshLog, List.filter_cons_of_pos (keepsLine_freshLine n), List.filter_nil,
    List.map_singleton, cleanText_freshLine]

theorem startsReport_freshLog (n : Nat) : StartsReport (freshLog n) := by
  intro line hline
  rw [cleanLines_freshLog] at hline
  obtain rfl := Option.some.inj hline
  exact List.prefix_append _ _

theorem splitOn_append {a : Line} (ha : '\n' ∉ a) (b : Line) :
    (a ++ b).splitOn '\n' = (b.splitOn '\n').modifyHead (a ++ ·) := by
  induction a with
  | nil =>
      rw [List.nil_append]
      cases b.splitOn '\n' <;> rfl
  | cons c a ih =>
      rw [List.mem_cons, not_or] at ha
      have hc : (c == '\n') = false := beq_eq_false_iff_ne.mpr (Ne.symm ha.1)
      rw [List.cons_append, List.splitOn_cons_eq_if_modifyHead, hc, ih ha.2]
      cases b.splitOn '\n' <;> rfl

/-- No rule touches a fresh line. -/
theorem freshLine_apply {r : Rewrite} (hlead : ['#'] <+: r.lead) (b : Line) :
    r.apply (freshLine n ++ b) = freshLine n ++ r.apply b := by
  refine Rewrite.apply_append (fun d hd hstarts => ?_) b
  obtain ⟨t, ht⟩ := hlead
  rw [← ht] at hstarts
  have hmem := mem_freshLine hd
  rw [(List.cons_prefix_cons.mp hstarts).1] at hmem
  exact absurd hmem (by decide)

theorem newline_notMem_freshLine (n : Nat) : '\n' ∉ freshLine n :=
  fun hmem => absurd (mem_freshLine hmem) (by decide)

theorem reportsOf_freshLog (n : Nat) : reportsOf (freshLog n) = [freshLine n] := by
  have hcut := @freshLine_apply n cutRule (by decide) []
  have hsqueeze := @freshLine_apply n squeezeRule (by decide) []
  rw [List.append_nil, show cutRule.apply [] = [] from rfl, List.append_nil] at hcut
  rw [List.append_nil, show squeezeRule.apply [] = [] from rfl, List.append_nil] at hsqueeze
  rw [reportsOf_eq, cleanLines_freshLog, cleanReports, if_neg (List.cons_ne_nil _ _),
    List.intercalate_singleton, cutReports, hcut,
    List.splitOn_eq_singleton (newline_notMem_freshLine n), List.map_singleton, hsqueeze]

/-- Lines in front of the first separator go to the report before. -/
theorem reportsOf_fresh_append {lines : List Line} (h : ¬ StartsReport lines) :
    ∃ more reports, more ≠ [] ∧ ∀ n,
      reportsOf (freshLog n ++ lines) = (freshLine n ++ more) :: reports := by
  obtain ⟨line, hline, hstarts⟩ : ∃ line ∈ (cleanLines lines).head?, ¬ separatorLine <+: line := by
    by_contra hnone
    push Not at hnone
    exact h hnone
  obtain ⟨tail, hlines⟩ := List.head?_eq_some_iff.mp hline
  have htext : ¬ separatorLine <+: hashes.intercalate (line :: tail) := by
    cases tail with
    | nil => rwa [List.intercalate_singleton]
    | cons line' tail =>
        rw [List.intercalate_cons_cons, List.append_assoc]
        exact fun hp => hstarts ((Rule.prefix_break (by decide)).mp hp)
  -- the text behind the fresh line begins with what stands for the end of the line
  have hcut : ∃ t, cutRule.apply (hashes ++ hashes.intercalate (line :: tail)) = '#' :: t := by
    have hnone : cutRule.matchLength (hashes ++ hashes.intercalate (line :: tail)) = none := by
      rw [cutRule, Rewrite.matchLength_literal, if_neg]
      exact fun hp => htext ((List.prefix_append_right_inj hashes).mp hp)
    rw [Rewrite.apply_eq]
    change ∃ t, substitute _ _ 0 ('#' :: ("###".toList ++ hashes.intercalate (line :: tail))) = _
    rw [substitute, show cutRule.matchLength
      ('#' :: ("###".toList ++ hashes.intercalate (line :: tail))) = none from hnone]
    exact ⟨_, rfl⟩
  obtain ⟨t, ht⟩ := hcut
  obtain ⟨first, others, hsplit⟩ := List.exists_cons_of_ne_nil (List.splitOn_ne_nil '\n' t)
  refine ⟨squeezeRule.apply ('#' :: first), others.map squeezeRule.apply,
    Rewrite.apply_ne_nil (by decide) (List.cons_ne_nil _ _), fun n => ?_⟩
  have hhash : ('#' :: t).splitOn '\n' = ('#' :: first) :: others := by
    rw [List.splitOn_cons_eq_if_modifyHead, hsplit]
    rfl
  rw [reportsOf_eq, cleanLines_append, cleanLines_freshLog, hlines, List.singleton_append,
    cleanReports, if_neg (List.cons_ne_nil _ _), List.intercalate_cons_cons, List.append_assoc,
    cutReports, freshLine_apply (by decide), ht,
    splitOn_append (newline_notMem_freshLine n), hhash, List.modifyHead_cons, List.map_cons,
    freshLine_apply (by decide)]

/-- A line that is longer than all reports. -/
theorem freshLine_append_notMem (reports : List Line) (more : Line) :
    freshLine reports.flatten.length ++ more ∉ reports := by
  intro hmem
  have hle := (List.sublist_flatten_of_mem hmem).length_le
  have hlen := length_freshLine reports.flatten.length
  rw [List.length_append] at hle
  omega

theorem startsReport_append_of_ne_nil {a : List Line} (ha : StartsReport a)
    (hne : cleanLines a ≠ []) (b : List Line) : StartsReport (a ++ b) := by
  intro line hline
  rw [cleanLines_append, List.head?_append_of_ne_nil _ hne] at hline
  exact ha line hline

theorem startsReport_fresh_append (n : Nat) (lines : List Line) :
    StartsReport (freshLog n ++ lines) :=
  startsReport_append_of_ne_nil (startsReport_freshLog n)
    (by rw [cleanLines_freshLog]; exact List.cons_ne_nil _ _) lines

end Fresh

/-! ## Adding a log -/

/-- Adding `copy` at any place of a list of logs that has `log`, and else
only `Other` logs, leaves the file and the counts as they are. -/
def Deduplicated (Other : List Line → Prop) (log copy : List Line) : Prop :=
  ∀ findings pre post, log ∈ pre ++ post → (∀ other ∈ pre ++ post, other = log ∨ Other other) →
    reportOf findings (pre ++ copy :: post) = reportOf findings (pre ++ post)

/-- The copy keeps no line, or it and the log begin with a separator and
each of its reports is one of the log's. -/
def NoNewReport (log copy : List Line) : Prop :=
  cleanLines copy = [] ∨ StartsReport log ∧ StartsReport copy
    ∧ ∀ report ∈ reportsOf copy, report ∈ reportsOf log

/-- Each runtime error of the copy is one of the log's. -/
def NoNewError (log copy : List Line) : Prop :=
  ∀ line ∈ runtimeErrorLines copy, line ∈ runtimeErrorLines log

theorem mem_runtimeErrorLines_flatten {logs : List (List Line)} {line : Line} :
    line ∈ runtimeErrorLines logs.flatten ↔ ∃ log ∈ logs, line ∈ runtimeErrorLines log := by
  simp only [runtimeErrorLines, List.mem_map, List.mem_filter, List.mem_flatten]
  constructor
  · rintro ⟨raw, ⟨⟨log, hlog, hraw⟩, herror⟩, rfl⟩
    exact ⟨log, hlog, raw, ⟨hraw, herror⟩, rfl⟩
  · rintro ⟨log, hlog, raw, ⟨hraw, herror⟩, rfl⟩
    exact ⟨raw, ⟨⟨log, hlog, hraw⟩, herror⟩, rfl⟩

section Adding

variable {Other : List Line → Prop} {log copy other : List Line} {pre post : List (List Line)}

theorem mem_inserted {l : List Line} : l ∈ pre ++ copy :: post ↔ l = copy ∨ l ∈ pre ++ post := by
  rw [List.mem_append, List.mem_cons, List.mem_append]
  tauto

/-- The reports and errors after the insertion are known, if none is lost. -/
theorem Deduplicated.known (h : Deduplicated Other log copy) (hlog : log ∈ pre ++ post)
    (hother : ∀ other ∈ pre ++ post, other = log ∨ Other other)
    (hkept : ∀ report ∈ reportsOf (pre ++ post).flatten,
      report ∈ reportsOf (pre ++ copy :: post).flatten) :
    (∀ report ∈ reportsOf (pre ++ copy :: post).flatten, report ∈ reportsOf (pre ++ post).flatten)
      ∧ ∀ line ∈ runtimeErrorLines copy, ∃ log ∈ pre ++ post, line ∈ runtimeErrorLines log := by
  have hsame := congrArg SanitizerReport.asanfiltered (h [] pre post hlog hother)
  have herrors : ∀ line ∈ runtimeErrorLines (pre ++ post).flatten,
      line ∈ runtimeErrorLines (pre ++ copy :: post).flatten := by
    intro line hline
    obtain ⟨l, hl, hmem⟩ := mem_runtimeErrorLines_flatten.mp hline
    exact mem_runtimeErrorLines_flatten.mpr ⟨l, mem_inserted.mpr (.inr hl), hmem⟩
  obtain ⟨hreports, hlines⟩ := known_of_same_file hkept herrors hsame
  refine ⟨hreports, fun line hline => ?_⟩
  exact mem_runtimeErrorLines_flatten.mp (hlines line
    (mem_runtimeErrorLines_flatten.mpr ⟨copy, mem_inserted.mpr (.inl rfl), hline⟩))

/-- A copy that begins with other lines changes the report before it. -/
theorem Deduplicated.startsReport (h : Deduplicated Other log copy)
    (hfresh : ∀ n, Other (freshLog n)) : StartsReport copy := by
  by_contra hnot
  obtain ⟨more, reports, hmore, hcopy⟩ := reportsOf_fresh_append hnot
  let n := (reportsOf log).flatten.length
  have hbefore : reportsOf ([log, freshLog n, freshLog n] ++ []).flatten
      = reportsOf log ++ [freshLine n, freshLine n] := by
    change reportsOf (log ++ (freshLog n ++ (freshLog n ++ []))) = _
    rw [List.append_nil, reportsOf_append (startsReport_fresh_append n _),
      reportsOf_append (startsReport_freshLog n), reportsOf_freshLog]
    rfl
  have hafter : reportsOf ([log, freshLog n, freshLog n] ++ [copy]).flatten
      = reportsOf log ++ freshLine n :: (freshLine n ++ more) :: reports := by
    change reportsOf (log ++ (freshLog n ++ (freshLog n ++ (copy ++ [])))) = _
    rw [List.append_nil, reportsOf_append (startsReport_fresh_append n _),
      reportsOf_append (startsReport_fresh_append n _), reportsOf_freshLog, hcopy]
    rfl
  have hknown := (@known Other log copy [log, freshLog n, freshLog n] [] h
    List.mem_cons_self ?_ ?_).1
  · rw [hafter, hbefore] at hknown
    have hmem := hknown (freshLine n ++ more) (by simp)
    rw [List.mem_append] at hmem
    rcases hmem with hmem | hmem
    · exact freshLine_append_notMem _ more hmem
    · simp [hmore] at hmem
  · intro other hmem
    simp only [List.append_nil, List.mem_cons, List.not_mem_nil, or_false] at hmem
    rcases hmem with rfl | rfl | rfl
    · exact .inl rfl
    · exact .inr (hfresh n)
    · exact .inr (hfresh n)
  · rw [hafter, hbefore]
    intro report hreport
    simp only [List.mem_append, List.mem_cons, List.not_mem_nil, or_false] at hreport ⊢
    tauto

/-- A log that begins with other lines is changed by a copy before it. -/
theorem Deduplicated.cleanLines_nil (h : Deduplicated Other log copy)
    (hfresh : ∀ n, Other (freshLog n)) (hcopy : StartsReport copy)
    (hother : other = log ∨ Other other)
    (hnot : ¬ StartsReport other) : cleanLines copy = [] := by
  by_contra hne
  obtain ⟨more, reports, hmore, hjoined⟩ := reportsOf_fresh_append hnot
  let n := (reportsOf log ++ reports).flatten.length
  have hbefore : reportsOf ([log, freshLog n, other, freshLog n] ++ [other]).flatten
      = reportsOf log
        ++ (((freshLine n ++ more) :: reports) ++ (freshLine n ++ more) :: reports) := by
    change reportsOf (log ++ (freshLog n ++ (other ++ (freshLog n ++ (other ++ []))))) = _
    rw [List.append_nil, reportsOf_append (startsReport_fresh_append n _), ← List.append_assoc,
      reportsOf_append (startsReport_fresh_append n _), hjoined]
  have hafter : reportsOf ([log, freshLog n, other, freshLog n] ++ [copy, other]).flatten
      = reportsOf log ++ (((freshLine n ++ more) :: reports)
        ++ freshLine n :: reportsOf (copy ++ other)) := by
    change reportsOf (log ++ (freshLog n ++ (other ++ (freshLog n ++ (copy ++ (other ++ [])))))) = _
    rw [List.append_nil, reportsOf_append (startsReport_fresh_append n _),
      ← List.append_assoc (freshLog n) other, reportsOf_append (startsReport_fresh_append n _),
      reportsOf_append (startsReport_append_of_ne_nil hcopy hne other), reportsOf_freshLog, hjoined]
    rfl
  have hknown := (@known Other log copy [log, freshLog n, other, freshLog n] [other] h
    List.mem_cons_self ?_ ?_).1
  · rw [hafter, hbefore] at hknown
    have hmem := hknown (freshLine n) (by simp)
    have hnew := freshLine_append_notMem (reportsOf log ++ reports) []
    rw [List.append_nil, List.mem_append, not_or] at hnew
    simp only [List.mem_append, List.mem_cons, List.self_eq_append_right] at hmem
    rcases hmem with hmem | (hmem | hmem) | hmem | hmem
    · exact hnew.1 hmem
    · exact hmore hmem
    · exact hnew.2 hmem
    · exact hmore hmem
    · exact hnew.2 hmem
  · intro other' hmem
    simp only [List.mem_append, List.mem_cons, List.not_mem_nil, or_false] at hmem
    rcases hmem with (rfl | rfl | rfl | rfl) | rfl
    · exact .inl rfl
    · exact .inr (hfresh n)
    · exact hother
    · exact .inr (hfresh n)
    · exact hother
  · rw [hafter, hbefore]
    intro report hreport
    simp only [List.mem_append, List.mem_cons] at hreport ⊢
    tauto

theorem Deduplicated.noNew (h : Deduplicated Other log copy) (hcopy : StartsReport copy) :
    (∀ report ∈ reportsOf copy, report ∈ reportsOf log) ∧ NoNewError log copy := by
  have hbefore : reportsOf ([log] ++ []).flatten = reportsOf log := by
    change reportsOf (log ++ []) = _
    rw [List.append_nil]
  have hafter : reportsOf ([log] ++ [copy]).flatten = reportsOf log ++ reportsOf copy := by
    change reportsOf (log ++ (copy ++ [])) = _
    rw [List.append_nil, reportsOf_append hcopy]
  obtain ⟨hreports, herrors⟩ := @known Other log copy [log] [] h List.mem_cons_self
    (fun other hmem => .inl (List.mem_singleton.mp hmem)) (by
      rw [hafter, hbefore]
      exact fun report hreport => List.mem_append_left _ hreport)
  rw [hafter, hbefore] at hreports
  refine ⟨fun report hreport => hreports report (List.mem_append_right _ hreport),
    fun line hline => ?_⟩
  obtain ⟨l, hl, hmem⟩ := herrors line hline
  rwa [List.mem_singleton.mp hl] at hmem

theorem reportOf_congr {findings : List Line} {logs logs' : List (List Line)}
    (h : filteredLog logs = filteredLog logs') :
    reportOf findings logs = reportOf findings logs' := by
  rw [reportOf, reportOf, h]

/-- The same reports, and no new error. -/
theorem deduplicated_of_reports (herror : NoNewError log copy)
    (hreports : ∀ pre post, log ∈ pre ++ post → (∀ other ∈ pre ++ post, other = log ∨ Other other) →
      ∀ report, report ∈ reportsOf (pre ++ copy :: post).flatten
        ↔ report ∈ reportsOf (pre ++ post).flatten) : Deduplicated Other log copy := by
  intro findings pre post hlog hother
  refine reportOf_congr ?_
  have herrors : ∀ line, line ∈ runtimeErrorLines (pre ++ copy :: post).flatten
      ↔ line ∈ runtimeErrorLines (pre ++ post).flatten := by
    intro line
    rw [mem_runtimeErrorLines_flatten, mem_runtimeErrorLines_flatten]
    constructor
    · rintro ⟨l, hl, hmem⟩
      rcases mem_inserted.mp hl with rfl | hl
      · exact ⟨log, hlog, herror line hmem⟩
      · exact ⟨l, hl, hmem⟩
    · rintro ⟨l, hl, hmem⟩
      exact ⟨l, mem_inserted.mpr (.inr hl), hmem⟩
  rw [filteredLog, filteredLog, normalizeReports, normalizeReports,
    sortUnique_congr (hreports pre post hlog hother), sortUnique_congr herrors]

theorem reportsOf_insert_nil (h : cleanLines copy = []) (pre post : List (List Line)) :
    reportsOf (pre ++ copy :: post).flatten = reportsOf (pre ++ post).flatten := by
  rw [reportsOf_eq, reportsOf_eq, List.flatten_append, List.flatten_append, List.flatten_cons,
    cleanLines_append, cleanLines_append, cleanLines_append, h, List.nil_append]

theorem mem_reportsOf_insert (hlog : StartsReport log) (hcopy : StartsReport copy)
    (hknown : ∀ report ∈ reportsOf copy, report ∈ reportsOf log) (hmem : log ∈ pre ++ post)
    (hother : ∀ other ∈ pre ++ post, other = log ∨ StartsReport other) (report : Line) :
    report ∈ reportsOf (pre ++ copy :: post).flatten
      ↔ report ∈ reportsOf (pre ++ post).flatten := by
  have hall : ∀ other ∈ pre ++ post, StartsReport other := by
    intro other hmem
    rcases hother other hmem with rfl | hstarts
    · exact hlog
    · exact hstarts
  have hall' : ∀ other ∈ pre ++ copy :: post, StartsReport other := by
    intro other hmem
    rcases mem_inserted.mp hmem with rfl | hmem
    · exact hcopy
    · exact hall other hmem
  rw [(reportsOf_flatten hall).1, (reportsOf_flatten hall').1, List.mem_flatMap, List.mem_flatMap]
  constructor
  · rintro ⟨l, hl, hreport⟩
    rcases mem_inserted.mp hl with rfl | hl
    · exact ⟨log, hmem, hknown report hreport⟩
    · exact ⟨l, hl, hreport⟩
  · rintro ⟨l, hl, hreport⟩
    exact ⟨l, mem_inserted.mpr (.inr hl), hreport⟩

end Adding

theorem not_startsReport_plain : ¬ StartsReport [['x']] := by
  intro h
  have hline := h ['x'] (by decide +kernel)
  exact absurd hline (by decide)

/-- When a log can be added to any list with `log`: only if it keeps no
line. When it can be added to lists whose logs begin with separators: only
if it begins with one, too, and brings no new report; and never with a new
runtime error. -/
theorem report_deduplication (log copy : List Line) :
    (Deduplicated (fun _ => True) log copy ↔ cleanLines copy = [] ∧ NoNewError log copy)
      ∧ (Deduplicated StartsReport log copy ↔ NoNewReport log copy ∧ NoNewError log copy) := by
  constructor
  · constructor
    · intro h
      have hcopy := h.startsReport fun _ => trivial
      exact ⟨h.cleanLines_nil (fun _ => trivial) hcopy (.inr trivial) not_startsReport_plain,
        (h.noNew hcopy).2⟩
    · rintro ⟨hnil, herror⟩
      exact deduplicated_of_reports herror fun pre post _ _ report => by
        rw [reportsOf_insert_nil hnil]
  · constructor
    · intro h
      have hcopy := h.startsReport startsReport_freshLog
      obtain ⟨hreports, herror⟩ := h.noNew hcopy
      refine ⟨?_, herror⟩
      by_cases hlog : StartsReport log
      · exact .inr ⟨hlog, hcopy, hreports⟩
      · exact .inl (h.cleanLines_nil startsReport_freshLog hcopy (.inl rfl) hlog)
    · rintro ⟨hnil | ⟨hlog, hcopy, hreports⟩, herror⟩
      · exact deduplicated_of_reports herror fun pre post _ _ report => by
          rw [reportsOf_insert_nil hnil]
      · exact deduplicated_of_reports herror fun pre post hmem hother =>
          mem_reportsOf_insert hlog hcopy hreports hmem hother

/-- If the filters leave the same of both, only the beginning matters. -/
theorem noNewReport_iff {log copy : List Line} (h : cleanLines copy = cleanLines log) :
    NoNewReport log copy ↔ StartsReport log := by
  have hsame : reportsOf copy = reportsOf log := by rw [reportsOf_eq, reportsOf_eq, h]
  have hstarts : StartsReport copy ↔ StartsReport log := by rw [StartsReport, StartsReport, h]
  constructor
  · rintro (hnil | ⟨hlog, -⟩)
    · intro line hline
      rw [← h, hnil] at hline
      cases hline
    · exact hlog
  · exact fun hlog => .inr ⟨hlog, hstarts.mpr hlog, fun report hreport => hsame ▸ hreport⟩

/-- A signal, as the sanitizer reports it. -/
def signalLog (errorLine : Line) : List Line := [deadlySignalText, separatorLine, errorLine]

def signalLog₁ : List Line :=
  signalLog "==1234==ERROR: AddressSanitizer: SEGV".toList

def signalLog₂ : List Line :=
  signalLog "==56789==ERROR: AddressSanitizer: SEGV".toList

/-- One report, from one process. -/
def signalOnce : LogDirectory := ⟨[("asan1.log.1234".toList, signalLog₁)], by decide⟩

/-- The same report, from two processes. -/
def signalTwice : LogDirectory :=
  ⟨[("asan1.log.1234".toList, signalLog₁), ("asan1.log.56789".toList, signalLog₂)], by decide⟩

/-- Counting does not need the order. -/
theorem length_filter_filteredLog (p : Line → Bool) (logs : List (List Line)) :
    ((filteredLog logs).filter p).length
      = (((reportsOf logs.flatten).dedup.flatMap expandReport).filter p).length
        + ((runtimeErrorLines logs.flatten).dedup.filter p).length := by
  have hreports := ((List.mergeSort_perm (reportsOf logs.flatten).dedup
    fun a b => decide (a ≤ b)).flatMap_right expandReport).filter p
  have herrors := (List.mergeSort_perm (runtimeErrorLines logs.flatten).dedup
    fun a b => decide (a ≤ b)).filter p
  rw [filteredLog, List.filter_append, List.length_append]
  exact congrArg₂ (· + ·) hreports.length_eq herrors.length_eq

theorem addressSanitizer_eq {grep : Grep} {dir : LogDirectory} (hlogs : asanLogs dir ≠ [])
    (htext : ∀ file ∈ asanLogs dir, ∀ line ∈ file.2, '\x00' ∉ line ∧ grep.encoded line = true)
    (hreal : ∀ file ∈ asanLogs dir, isHarnessShutdown dir file = false)
    (hnone : errorLogs dir = []) : (asanProcess grep normalizeReports dir).addressSanitizer
      = (((reportsOf ((asanLogs dir).map Prod.snd).flatten).dedup.flatMap expandReport).filter
          isAsanError).length
        + ((runtimeErrorLines ((asanLogs dir).map Prod.snd).flatten).dedup.filter
          isAsanError).length := by
  have hfindings : errorFindings grep dir = [] := by
    rw [errorFindings, errorScan, hnone]
    exact List.eq_nil_iff_forall_not_mem.mpr fun line hline => by
      cases mem_sortUnique.mp hline
  rw [asanProcess_eq hlogs htext hreal, reportOf, hfindings]
  exact length_filter_filteredLog _ _

/-- The second process makes two findings four. -/
theorem repeated_signal_is_counted : signalLog₁.map cleanText = signalLog₂.map cleanText
    ∧ (asanLogs signalOnce).map Prod.snd = [signalLog₁]
    ∧ (asanLogs signalTwice).map Prod.snd = [signalLog₁] ++ signalLog₂ :: []
    ∧ (asanProcess asciiGrep normalizeReports signalOnce).harnessShutdown = 0
    ∧ (asanProcess asciiGrep normalizeReports signalTwice).harnessShutdown = 0
    ∧ (asanProcess asciiGrep normalizeReports signalOnce).addressSanitizer = 2
    ∧ (asanProcess asciiGrep normalizeReports signalTwice).addressSanitizer = 4 := by
  have honce : ∀ file ∈ asanLogs signalOnce, isHarnessShutdown signalOnce file = false := by
    decide +kernel
  have htwice : ∀ file ∈ asanLogs signalTwice, isHarnessShutdown signalTwice file = false := by
    decide +kernel
  rw [addressSanitizer_eq (by decide +kernel) (by decide +kernel) honce (by decide +kernel),
    addressSanitizer_eq (by decide +kernel) (by decide +kernel) htwice (by decide +kernel)]
  decide +kernel

end LighttpdFuzz

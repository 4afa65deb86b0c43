import LighttpdFuzz.ErrorScan

/-!
# Which findings reach the report

The scan hands its confirmed exits to the shell as lines that begin with
a marker, in the same stream as the findings. A confirmed identity comes
through this stream unchanged (`readMarker_join`), and no finding can
pass for one: the `:` of a finding text never stands where those of an
identity do (`readMarker_finding`). So the logs are divided as the rule
says. What can go wrong is the way back: a finding that begins with the
marker is filtered out with the script's own lines, and `grep` prints no
line that is improperly encoded. `shutdown_rule_iff` puts both together.
-/

namespace LighttpdFuzz

open LineTools

variable {grep : Grep} {dir : LogDirectory}

/-! ## The marker -/

theorem isBlank_eq_true_iff {c : Char} : isBlank c = true ↔ c = ' ' ∨ c = '\t' := by
  simp [isBlank]

theorem readMarker_spec (line : Line) : ∃ before between after : Line,
    line = before ++ ((readMarker line).1 ++ (between ++ ((readMarker line).2 ++ after)))
      ∧ ':' ∉ before ∧ ':' ∉ between ∧ ':' ∉ after := by
  have hblank : ∀ {t : Line}, (∀ c ∈ t, isBlank c = true) → ':' ∉ t := fun h hin =>
    absurd (h ':' hin) (by decide)
  let tail := (line.dropWhile isBlank).dropWhile (!isBlank ·)
  refine ⟨line.takeWhile isBlank, tail.takeWhile isBlank,
    (tail.dropWhile isBlank).rtakeWhile isBlank, ?_,
    hblank fun _ => List.mem_takeWhile_imp, hblank fun _ => List.mem_takeWhile_imp,
    hblank fun _ => List.mem_rtakeWhile_imp⟩
  simp only [readMarker, tail, List.rdropWhile_append_rtakeWhile,
    List.takeWhile_append_dropWhile]

/-- Two words separated by a blank are read back. -/
theorem readMarker_join {marker identity : Line} (hm : marker ≠ [])
    (hmarker : ∀ c ∈ marker, isBlank c = false) (hi : identity ≠ [])
    (hidentity : ∀ c ∈ identity, isBlank c = false) :
    readMarker (marker ++ ' ' :: identity) = (marker, identity) := by
  have hword : ∀ {t u : Line}, t ≠ [] → (∀ c ∈ t, isBlank c = false) →
      (t ++ u).dropWhile isBlank = t ++ u := by
    intro t u hne ht
    obtain ⟨c, t, rfl⟩ := List.exists_cons_of_ne_nil hne
    rw [List.cons_append, List.dropWhile_cons_of_neg]
    rw [ht c List.mem_cons_self]
    exact Bool.false_ne_true
  have hnot : ∀ c ∈ marker, (!isBlank c) = true := fun c hc => by rw [hmarker c hc]; rfl
  have hend : identity.rdropWhile isBlank = identity := by
    rw [List.rdropWhile_eq_self_iff]
    intro hne
    rw [hidentity _ (List.getLast_mem hne)]
    exact Bool.false_ne_true
  have hstop : (' ' :: identity).takeWhile (!isBlank ·) = [] := rfl
  have hstay : (' ' :: identity).dropWhile (!isBlank ·) = ' ' :: identity := rfl
  have hafter : (' ' :: identity).dropWhile isBlank = identity := by
    have h := hword (u := []) hi hidentity
    rw [List.append_nil] at h
    exact h
  simp only [readMarker, hword hm hmarker, List.takeWhile_append_of_pos hnot,
    List.dropWhile_append_of_pos hnot, hstop, hstay, hafter, hend, List.append_nil]

theorem isBlank_shutdownIdentity {c l p : Line} (hc : IsNumber c) (hl : IsLaunchId l)
    (hp : IsNumber p) : ∀ x ∈ shutdownIdentity c l p, isBlank x = false := by
  have hdigit : ∀ x : Char, x.isDigit = true → isBlank x = false := by
    intro x hx
    rw [← Bool.not_eq_true, isBlank_eq_true_iff]
    rintro (rfl | rfl) <;> cases hx
  have hid : ∀ x, isLaunchIdChar x = true → isBlank x = false := by
    intro x hx
    rw [← Bool.not_eq_true, isBlank_eq_true_iff]
    rintro (rfl | rfl) <;> cases hx
  intro x hx
  rw [shutdownIdentity, List.mem_append, List.mem_cons, List.mem_append, List.mem_cons] at hx
  obtain hx | rfl | hx | rfl | hx := hx
  · exact hdigit x (hc.2 x hx)
  · rfl
  · exact hid x (hl.2 x hx)
  · rfl
  · exact hdigit x (hp.2 x hx)

theorem readMarker_confirmed {c l p : Line} (hc : IsNumber c) (hl : IsLaunchId l)
    (hp : IsNumber p) : readMarker (shutdownMarker ++ ' ' :: shutdownIdentity c l p)
      = (shutdownMarker, shutdownIdentity c l p) := by
  have hmarker : shutdownMarker.all (fun c => !isBlank c) = true := by decide
  refine readMarker_join (by decide) (fun c hchar => ?_) ?_ (isBlank_shutdownIdentity hc hl hp)
  · rw [← Bool.not_eq_true', List.all_eq_true.mp hmarker c hchar]
  · unfold shutdownIdentity
    simp

/-- Every finding text has a colon between two characters that are not
digits. -/
theorem colon_of_isFinding {line : Line} (h : isFinding line = true) :
    ∃ u v x y, line = (u ++ [x]) ++ ':' :: y :: v ∧ x.isDigit = false ∧ y.isDigit = false := by
  obtain ⟨text, htext, hin⟩ := isFinding_iff.mp h
  have hcolon : ∀ text ∈ [asanErrorText, anyCheckFailedText, deadlySignalText,
      libfuzzerErrorText], ∃ x y : Char, [x, ':', y] <:+: text ∧ x.isDigit = false
        ∧ y.isDigit = false := by
    intro text htext
    simp only [List.mem_cons, List.not_mem_nil, or_false] at htext
    obtain rfl | rfl | rfl | rfl := htext
    · exact ⟨'R', ' ', by decide⟩
    · exact ⟨'r', ' ', by decide⟩
    · exact ⟨'r', 'D', by decide⟩
    · exact ⟨'R', ' ', by decide⟩
  obtain ⟨x, y, hxy, hx, hy⟩ := hcolon text htext
  obtain ⟨u, v, rfl⟩ := hxy.trans hin
  exact ⟨u, v, x, y, by simp, hx, hy⟩

/-- A finding cannot pass for a confirmed exit. -/
theorem readMarker_finding {line c l p : Line} (hfinding : isFinding line = true)
    (hmarker : (readMarker line).1 = shutdownMarker) (hc : IsNumber c) (hl : IsLaunchId l)
    (hp : IsNumber p) : (readMarker line).2 ≠ shutdownIdentity c l p := by
  intro hidentity
  obtain ⟨before, between, after, hline, hbefore, hbetween, hafter⟩ := readMarker_spec line
  rw [hmarker, hidentity, shutdownIdentity] at hline
  obtain ⟨u, v, x, y, hfound, hx, hy⟩ := colon_of_isFinding hfinding
  -- the first colon of the line ends the config, the second one the launch id
  have hsplit : (before ++ shutdownMarker ++ between ++ c) ++ ':' :: (l ++ ':' :: (p ++ after))
      = (u ++ [x]) ++ ':' :: y :: v := by
    rw [← hfound, hline]
    simp only [List.append_assoc, List.cons_append]
  have hhead : ':' ∉ before ++ shutdownMarker ++ between ++ c := by
    have hm : ':' ∉ shutdownMarker := by decide
    simp [hbefore, hm, hbetween, hc.notMem (c := ':') rfl]
  obtain ⟨hleft, -⟩ | ⟨m, -, hright⟩ := split_first hhead hsplit
  · obtain ⟨c, d, rfl⟩ := List.eq_nil_or_concat' c |>.resolve_left hc.1
    rw [← List.append_assoc] at hleft
    have hd := (List.append_inj' hleft rfl).2
    cases hd
    rw [hc.2 x (by simp)] at hx
    cases hx
  · obtain ⟨rfl, hpid⟩ | ⟨m', -, hpid⟩ := split_first (hl.notMem rfl) hright
    · obtain ⟨d, p, rfl⟩ := List.exists_cons_of_ne_nil hp.1
      rw [List.cons_append, List.cons.injEq] at hpid
      rw [← hpid.1, hp.2 d List.mem_cons_self] at hy
      cases hy
    · have hin : ':' ∈ p ++ after := by
        rw [hpid]
        exact List.mem_append_right m' List.mem_cons_self
      rw [List.mem_append] at hin
      exact hin.elim (hp.notMem rfl) hafter

/-! ## The two groups -/

theorem mem_errorScan_iff {out : Line} :
    out ∈ errorScan dir ↔ ∃ file ∈ errorLogs dir, ∃ pre line post,
      file.2 = pre ++ line :: post
        ∧ ((∃ l p, ConfirmedExit dir (errorConfigId file.1) pre line l p
            ∧ out = shutdownMarker ++ ' ' :: shutdownIdentity (errorConfigId file.1) l p)
          ∨ out = line ∧ isFinding line = true
            ∧ ¬ Excused dir (errorConfigId file.1) pre line) := by
  rw [errorScan, List.mem_flatMap]
  exact exists_congr fun file => and_congr_right fun _ =>
    mem_scan_iff (errorConfigId_cases file.1)

theorem mem_confirmedShutdowns_iff {c l p : Line} (hc : IsNumber c) (hl : IsLaunchId l)
    (hp : IsNumber p) :
    shutdownIdentity c l p ∈ confirmedShutdowns dir ↔ ∃ lines,
      (errorLogName c, lines) ∈ dir.entries
        ∧ ∃ pre line post, lines = pre ++ line :: post ∧ ConfirmedExit dir c pre line l p := by
  rw [confirmedShutdowns, List.mem_filterMap]
  constructor
  · rintro ⟨out, hout, hread⟩
    rw [Option.ite_none_right_eq_some, Option.some.injEq] at hread
    obtain ⟨⟨name, lines⟩, hfile, pre, line, post, hlines, hcase⟩ := mem_errorScan_iff.mp hout
    obtain ⟨l', p', hexit, rfl⟩ | ⟨rfl, hfinding, -⟩ := hcase
    · obtain ⟨-, -, file, -, hcandidate⟩ := id hexit
      rw [readMarker_confirmed hcandidate.config hcandidate.launch hcandidate.number] at hread
      obtain ⟨hconfig, rfl, rfl⟩ := shutdownIdentity_inj hcandidate.config hcandidate.launch
        hc hl hread.2
      rw [hconfig] at hexit
      obtain ⟨-, rfl⟩ := (errorConfigId_eq_iff hc.1).mp hconfig
      exact ⟨lines, (List.mem_filter.mp hfile).1, pre, line, post, hlines, hexit⟩
    · exact absurd hread.2 (readMarker_finding hfinding hread.1 hc hl hp)
  · rintro ⟨lines, hfile, pre, line, post, hlines, hexit⟩
    have hconfig : errorConfigId (errorLogName c) = c := (errorConfigId_eq_iff hc.1).mpr ⟨hc, rfl⟩
    refine ⟨shutdownMarker ++ ' ' :: shutdownIdentity c l p, ?_, ?_⟩
    · refine mem_errorScan_iff.mpr ⟨(errorLogName c, lines), ?_, pre, line, post, hlines, ?_⟩
      · rw [errorLogs, List.mem_filter]
        exact ⟨hfile, decide_eq_true (List.prefix_append errorPrefix c)⟩
      · rw [hconfig]
        exact .inl ⟨l, p, hexit, rfl⟩
    · rw [readMarker_confirmed hc hl hp]
      exact if_pos rfl

/-- The script's decision about a log is the rule's. -/
theorem isHarnessShutdown_iff {file : Line × List Line} (hfile : file ∈ dir.entries) :
    isHarnessShutdown dir file = true ↔ IsHarnessShutdown dir file := by
  constructor
  · intro h
    unfold isHarnessShutdown at h
    split at h
    · next identity hidentity =>
        obtain ⟨c, l, p, hcandidate, rfl⟩ := candidateIdentity_eq_some_iff.mp hidentity
        obtain ⟨lines, herror, pre, line, post, hlines, hexit⟩ :=
          (mem_confirmedShutdowns_iff hcandidate.config hcandidate.launch
            hcandidate.number).mp (List.contains_iff_mem.mp h)
        obtain ⟨rfl, hrecent, -⟩ := hexit
        exact ⟨c, l, p, hcandidate, lines, herror, pre, post, hlines, hrecent⟩
    · cases h
  · rintro ⟨c, l, p, hcandidate, lines, herror, pre, post, hlines, hrecent⟩
    have hidentity := candidateIdentity_eq_some_iff.mpr ⟨c, l, p, hcandidate, rfl⟩
    rw [isHarnessShutdown, hidentity]
    exact List.contains_iff_mem.mpr <|
      (mem_confirmedShutdowns_iff hcandidate.config hcandidate.launch hcandidate.number).mpr
        ⟨lines, herror, pre, _, post, hlines, rfl, hrecent, file, hfile, hcandidate⟩

/-! ## Findings and runtime errors -/

/-- The lines of these logs are printed. -/
structure Printable (grep : Grep) (dir : LogDirectory) : Prop where
  /-- No finding of an error log begins like one of the script's own lines. -/
  markerFree : ∀ file ∈ errorLogs dir, ∀ line ∈ file.2, isFinding line = true →
    ¬ shutdownMarker ++ [' '] <+: line
  findings : ∀ file ∈ errorLogs dir, ∀ line ∈ file.2, isFinding line = true →
    grep.encoded line = true
  runtime : ∀ file ∈ asanLogs dir, ∀ line ∈ file.2, runtimeErrorText <:+: line →
    grep.encoded line = true

theorem marker_heads (rest : Line) :
    shutdownMarker ++ [' '] <+: shutdownMarker ++ ' ' :: rest :=
  ⟨rest, by rw [List.append_assoc, List.singleton_append]⟩

theorem Grep.mem_printed {selects : Line → Bool} {lines : List Line} {line : Line} :
    line ∈ grep.printed selects lines
      ↔ line ∈ lines ∧ selects line = true ∧ grep.encoded line = true := by
  rw [printed, List.mem_filter, List.mem_filter, and_assoc]

theorem mem_errorFindings_iff {out : Line} :
    out ∈ errorFindings grep dir ↔ ¬ shutdownMarker ++ [' '] <+: out
      ∧ grep.encoded out = true ∧ isFinding out = true ∧ ∃ file ∈ errorLogs dir, ∃ pre post,
        file.2 = pre ++ out :: post ∧ ¬ Excused dir (errorConfigId file.1) pre out := by
  rw [errorFindings, mem_sortUnique, Grep.mem_printed, mem_errorScan_iff, Bool.not_eq_true',
    decide_eq_false_iff_not]
  constructor
  · rintro ⟨⟨file, hfile, pre, line, post, hlines, hcase⟩, hmarker, hencoded⟩
    obtain ⟨l, p, -, rfl⟩ | ⟨rfl, hfinding, hkept⟩ := hcase
    · exact absurd (marker_heads _) hmarker
    · exact ⟨hmarker, hencoded, hfinding, file, hfile, pre, post, hlines, hkept⟩
  · rintro ⟨hmarker, hencoded, hfinding, file, hfile, pre, post, hlines, hkept⟩
    exact ⟨⟨file, hfile, pre, out, post, hlines, .inr ⟨rfl, hfinding, hkept⟩⟩, hmarker, hencoded⟩

/-- An excused line never begins with the marker. -/
theorem not_excused_of_marker {configId : Line} {pre : List Line} {line : Line}
    (h : shutdownMarker ++ [' '] <+: line) : ¬ Excused dir configId pre line := by
  obtain ⟨rest, rfl⟩ := h
  have hhead : (shutdownMarker ++ [' '] ++ rest).head? = some '@' := rfl
  rintro (⟨l, p, heq, -⟩ | ⟨heq, -⟩)
  · rw [heq, head_exitLine] at hhead
    exact absurd hhead (by decide)
  · rw [heq] at hhead
    exact absurd hhead (by decide)

/-- An excused line is ASCII. -/
theorem encoded_of_excused {configId : Line} {pre : List Line} {line : Line}
    (h : Excused dir configId pre line) : grep.encoded line = true := by
  have hascii : ∀ {t : Line}, (t.all fun c => decide (c.toNat < 0x80)) = true →
      ∀ c ∈ t, c.toNat < 0x80 := fun h c hc => of_decide_eq_true (List.all_eq_true.mp h c hc)
  refine grep.encoded_ascii line ?_
  rcases h with ⟨l, p, rfl, -, file, -, hcandidate⟩ | ⟨rfl, -⟩
  · intro c hc
    rcases List.mem_append.mp hc with hc | hc
    · exact hascii rfl c hc
    · rcases List.mem_append.mp hc with hc | hc
      · have hdigit := hcandidate.number.2 c hc
        simp only [Char.isDigit, Bool.and_eq_true, decide_eq_true_eq, UInt32.le_iff_toNat_le,
          ge_iff_le] at hdigit
        exact lt_of_le_of_lt hdigit.2 (by decide)
      · exact hascii rfl c hc
  · exact hascii rfl

/-- The clean-up leaves the diagnostic's text in place. -/
theorem runtimeErrorText_cleanRuntimeError {line : Line} (h : runtimeErrorText <:+: line) :
    runtimeErrorText <:+: cleanRuntimeError line := by
  have hnull : nullAddress.Avoids runtimeErrorText := by decide
  have hany : anyAddress.Avoids runtimeErrorText := by decide
  have hsource : sourceTree.Avoids runtimeErrorText := by decide
  have hrun : runTree.Avoids runtimeErrorText := by decide
  exact Rewrite.keeps hrun (Rewrite.keeps hsource (Rewrite.keeps hany (Rewrite.keeps hnull h)))

theorem mem_runtimeLines {line : Line} : line ∈ runtimeLines grep dir
    ↔ ∃ file ∈ asanLogs dir, line ∈ grep.text file.2 ∧ runtimeErrorText <:+: line
      ∧ grep.encoded line = true := by
  unfold runtimeLines
  simp only [List.mem_flatMap, Grep.mem_printed, decide_eq_true_eq]

theorem mem_runtimeErrors {out : Line} : out ∈ runtimeErrors grep dir
    ↔ ∃ line ∈ runtimeLines grep dir, cleanRuntimeError line = out := by
  rw [runtimeErrors, mem_sortUnique, List.mem_map]

/-! ## The report -/

/-- How the logs are divided, and what the aggregate holds. -/
structure LogsDivided (grep : Grep) (aggregate : List Line → List Line) (dir : LogDirectory) :
    Prop where
  /-- A log is kept from the report stream exactly when it is a harness shutdown. -/
  leftOut : ∀ file ∈ asanLogs dir, file ∉ asanReportLogs dir ↔ IsHarnessShutdown dir file
  /-- The recognised logs are divided into shutdowns, which are counted, and reports. -/
  divided : ∃ shutdowns, (shutdowns ++ asanReportLogs dir).Perm (asanLogs dir)
    ∧ (∀ file ∈ shutdowns, IsHarnessShutdown dir file)
    ∧ shutdowns.length = (asanProcess grep aggregate dir).harnessShutdown
  /-- Nothing but findings of the error logs is reported, and each text once. -/
  genuine : (errorFindings grep dir).Nodup ∧ ∀ line ∈ errorFindings grep dir,
    isFinding line = true ∧ ∃ file ∈ errorLogs dir, line ∈ file.2
  /-- The runtime errors that are printed are those of recognised logs, and stay in the
  aggregate. -/
  cleaned : ∀ line ∈ runtimeLines grep dir, (∃ file ∈ asanLogs dir, line ∈ file.2)
    ∧ cleanRuntimeError line ∈ (asanProcess grep aggregate dir).asanfiltered
    ∧ runtimeErrorText <:+: cleanRuntimeError line

/-- The whole rule: besides, no finding is lost that is not excused, and no
runtime error. -/
structure ShutdownRule (grep : Grep) (aggregate : List Line → List Line) (dir : LogDirectory) :
    Prop extends LogsDivided grep aggregate dir where
  kept : ∀ file ∈ errorLogs dir, ∀ pre line post, file.2 = pre ++ line :: post →
    isFinding line = true → ¬ Excused dir (errorConfigId file.1) pre line →
      line ∈ errorFindings grep dir
  runtime : ∀ file ∈ asanLogs dir, ∀ line ∈ file.2, runtimeErrorText <:+: line →
    line ∈ runtimeLines grep dir

theorem mem_asanReportLogs_iff {file : Line × List Line} (hfile : file ∈ asanLogs dir) :
    file ∈ asanReportLogs dir ↔ ¬ IsHarnessShutdown dir file := by
  rw [asanReportLogs, List.mem_filter, Bool.not_eq_true', ← Bool.not_eq_true,
    isHarnessShutdown_iff (List.mem_filter.mp hfile).1]
  exact and_iff_right hfile

theorem asanLogs_isEmpty_of_mem {file : Line × List Line}
    (hfile : file ∈ asanLogs dir) : (asanLogs dir).isEmpty = false := by
  rw [← Bool.not_eq_true, List.isEmpty_iff]
  exact List.ne_nil_of_mem hfile

theorem harnessShutdown_eq (grep : Grep) (aggregate : List Line → List Line)
    (dir : LogDirectory) : (asanProcess grep aggregate dir).harnessShutdown
      = ((asanLogs dir).filter (isHarnessShutdown dir)).length := by
  unfold asanProcess
  split
  · next hempty => rw [List.isEmpty_iff.mp hempty]; rfl
  · rfl

/-- The logs are divided as the rule says, whatever they contain. -/
theorem logs_divided (grep : Grep) (aggregate : List Line → List Line) (dir : LogDirectory) :
    LogsDivided grep aggregate dir where
  leftOut file hfile := by rw [mem_asanReportLogs_iff hfile, not_not]
  divided := by
    refine ⟨(asanLogs dir).filter (isHarnessShutdown dir),
      List.filter_append_perm (isHarnessShutdown dir) (asanLogs dir), ?_,
      (harnessShutdown_eq grep aggregate dir).symm⟩
    intro file hfile
    obtain ⟨hlog, hshutdown⟩ := List.mem_filter.mp hfile
    exact (isHarnessShutdown_iff (List.mem_filter.mp hlog).1).mp hshutdown
  genuine := by
    refine ⟨nodup_sortUnique _, fun line hline => ?_⟩
    obtain ⟨-, -, hfinding, file, hfile, pre, post, hlines, -⟩ := mem_errorFindings_iff.mp hline
    exact ⟨hfinding, file, hfile, by rw [hlines]; simp⟩
  cleaned line hline := by
    obtain ⟨file, hfile, hread, htext, -⟩ := mem_runtimeLines.mp hline
    refine ⟨⟨file, hfile, (grep.text_prefix file.2).subset hread⟩, ?_,
      runtimeErrorText_cleanRuntimeError htext⟩
    rw [asanProcess, asanLogs_isEmpty_of_mem hfile]
    exact List.mem_append_right _ (mem_runtimeErrors.mpr ⟨line, hline, rfl⟩)

/-- `asanProcess.sh` follows the harness-shutdown rule on a log directory
without NULs exactly when no finding of an error log begins with the marker
that the script puts before its own lines, and its findings and the runtime
errors are properly encoded. -/
theorem shutdown_rule_iff (grep : Grep) (aggregate : List Line → List Line) (dir : LogDirectory)
    (hnul : ∀ file ∈ dir.entries, ∀ line ∈ file.2, '\x00' ∉ line) :
    ShutdownRule grep aggregate dir ↔ Printable grep dir := by
  constructor
  · intro h
    have hprinted : ∀ file ∈ errorLogs dir, ∀ pre line post, file.2 = pre ++ line :: post →
        isFinding line = true → ¬ Excused dir (errorConfigId file.1) pre line →
        ¬ shutdownMarker ++ [' '] <+: line ∧ grep.encoded line = true :=
      fun file hfile pre line post hlines hfinding hkept =>
        have hmem :=
          mem_errorFindings_iff.mp (h.kept file hfile pre line post hlines hfinding hkept)
        ⟨hmem.1, hmem.2.1⟩
    refine ⟨fun file hfile line hline hfinding hmarker => ?_,
      fun file hfile line hline hfinding => ?_, fun file hfile line hline htext => ?_⟩
    · obtain ⟨pre, post, hlines⟩ := List.append_of_mem hline
      exact (hprinted file hfile pre line post hlines hfinding
        (not_excused_of_marker hmarker)).1 hmarker
    · obtain ⟨pre, post, hlines⟩ := List.append_of_mem hline
      by_cases hexcused : Excused dir (errorConfigId file.1) pre line
      · exact encoded_of_excused hexcused
      · exact (hprinted file hfile pre line post hlines hfinding hexcused).2
    · obtain ⟨-, -, -, -, hencoded⟩ := mem_runtimeLines.mp (h.runtime file hfile line hline htext)
      exact hencoded
  · intro h
    refine { logs_divided grep aggregate dir with kept := ?_, runtime := ?_ }
    · intro file hfile pre line post hlines hfinding hkept
      have hline : line ∈ file.2 := by rw [hlines]; simp
      exact mem_errorFindings_iff.mpr ⟨h.markerFree file hfile line hline hfinding,
        h.findings file hfile line hline hfinding, hfinding, file, hfile, pre, post, hlines, hkept⟩
    · intro file hfile line hline htext
      have hread := grep.text_eq file.2 (hnul file (List.mem_filter.mp hfile).1)
      exact mem_runtimeLines.mpr ⟨file, hfile, by rwa [hread], htext,
        h.runtime file hfile line hline htext⟩

/-- A report of the exit hook with its sidecar and the error log that has
the exit line, a finding of its own and a runtime error. -/
def shutdownLogs : LogDirectory where
  entries := [
    ("asan1.log.c-1.100".toList, [checkFailedText, exitCallbackText]),
    ("asan1.log.c-1.100.supervisor-stop".toList, ["status=72".toList]),
    ("asan2.log.7".toList, ["a.c:1: runtime error: shift".toList]),
    ("error1".toList, ["--- supervisor launch c-1 ---".toList,
      "==100== ERROR: libFuzzer: fuzz target exited".toList, deadlySignalText, exitSummary,
      "==7==ERROR: AddressSanitizer: SEGV".toList])]
  nodup := by decide

theorem shutdown_rule_demo : ShutdownRule asciiGrep id shutdownLogs :=
  (shutdown_rule_iff asciiGrep id shutdownLogs (by decide +kernel)).mpr
    ⟨by decide +kernel, by decide +kernel, by decide +kernel⟩

/-- A finding behind the marker's text. -/
def forgedLine : Line := "@@HARNESS_SHUTDOWN@@ ==7==ERROR: AddressSanitizer: SEGV".toList

/-- A finding with a character that is not properly encoded. -/
def strayLine : Line := "==7==ERROR: AddressSanitizer: SEGV \u00ff".toList

/-- One error log with one line. -/
def oneFinding (line : Line) : LogDirectory := ⟨[("error1".toList, [line])], List.nodup_singleton _⟩

/-- The finding is neither an exit line nor a signal line, and it is not
reported. -/
def IsLost (line : Line) : Prop :=
  isFinding line = true
    ∧ ¬ Excused (oneFinding line) (errorConfigId "error1".toList) [] line
    ∧ line ∉ errorFindings asciiGrep (oneFinding line)
    ∧ ¬ ShutdownRule asciiGrep id (oneFinding line)

theorem isLost_of_notMem {line : Line} (hfinding : isFinding line = true)
    (hexcused : ¬ Excused (oneFinding line) (errorConfigId "error1".toList) [] line)
    (hout : line ∉ errorFindings asciiGrep (oneFinding line)) : IsLost line :=
  ⟨hfinding, hexcused, hout, fun h =>
    hout (h.kept _ (List.mem_singleton_self _) [] line [] rfl hfinding hexcused)⟩

theorem forged_finding_is_lost : IsLost forgedLine ∧ IsLost strayLine := by
  constructor
  · have hmarker : shutdownMarker ++ [' '] <+: forgedLine := by decide
    refine isLost_of_notMem (by decide) (not_excused_of_marker hmarker) fun h => ?_
    exact (mem_errorFindings_iff.mp h).1 hmarker
  · have hencoded : asciiGrep.encoded strayLine = false := by decide
    refine isLost_of_notMem (by decide) (fun h => ?_) fun h => ?_
    · exact Bool.false_ne_true (hencoded.symm.trans (encoded_of_excused h))
    · exact Bool.false_ne_true (hencoded.symm.trans (mem_errorFindings_iff.mp h).2.1)

end LighttpdFuzz

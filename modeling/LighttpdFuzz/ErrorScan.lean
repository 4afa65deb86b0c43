import LighttpdFuzz.HarnessShutdown

/-!
# Scanning an error log

The `awk` program that reads an error log keeps two facts about the
lines so far: the launch that was announced last, and whether the run of
signal lines after a confirmed exit line is still unbroken.
`scanLine_cases` lists what one line can do; `stateAfter_launchId_iff`
and `stateAfter_suppress_iff` follow by induction over the log, and
`mem_scan_iff` says what the program prints.
-/

namespace LighttpdFuzz

open LineTools

variable {dir : LogDirectory} {configId : Line}

/-! ## Lines that cannot be confused -/

theorem head_launchLine (launchId : Line) : (launchLine launchId).head? = some '-' := rfl

theorem head_exitLine (pid : Line) : (exitLine pid).head? = some '=' := rfl

theorem launchLine_inj {l l' : Line} (h : launchLine l = launchLine l') : l = l' :=
  List.append_cancel_right (List.append_cancel_left h)

theorem exitLine_inj {p p' : Line} (h : exitLine p = exitLine p') : p = p' :=
  List.append_cancel_right (List.append_cancel_left h)

theorem exitLine_ne_launchLine (p l : Line) : exitLine p ≠ launchLine l := fun h => by
  have hhead := congrArg List.head? h
  rw [head_launchLine, head_exitLine] at hhead
  exact absurd hhead (by decide)

theorem deadlySignal_ne_launchLine (l : Line) : deadlySignalText ≠ launchLine l := fun h => by
  have hhead := congrArg List.head? h
  rw [head_launchLine] at hhead
  exact absurd hhead (by decide)

theorem isFinding_iff {line : Line} :
    isFinding line = true ↔ ∃ text ∈ [asanErrorText, anyCheckFailedText, deadlySignalText,
      libfuzzerErrorText], text <:+: line := by
  simp [isFinding, or_assoc]

theorem colon_mem_of_isFinding {line : Line} (h : isFinding line = true) : ':' ∈ line := by
  obtain ⟨text, htext, hin⟩ := isFinding_iff.mp h
  have hcolon : ∀ text ∈ [asanErrorText, anyCheckFailedText, deadlySignalText,
      libfuzzerErrorText], ':' ∈ text := by decide
  exact hin.subset (hcolon text htext)

theorem isFinding_launchLine {l : Line} (hl : IsLaunchId l) : isFinding (launchLine l) = false := by
  rw [← Bool.not_eq_true]
  intro h
  have hcolon := colon_mem_of_isFinding h
  rw [launchLine, List.mem_append, List.mem_append] at hcolon
  obtain hin | hin | hin := hcolon
  · exact absurd hin (by decide)
  · exact hl.notMem rfl hin
  · exact absurd hin (by decide)

/-! ## One line -/

theorem scanTail_fst (s : ScanState) (line : Line) :
    (scanTail s line).1 = ⟨s.launchId, s.suppressShutdownTail && line == deadlySignalText⟩ := by
  obtain ⟨launchId, suppress⟩ := s
  unfold scanTail
  cases suppress with
  | false => rfl
  | true =>
      cases hdeadly : line == deadlySignalText with
      | true => rfl
      | false =>
          simp only [Bool.true_and, Bool.false_eq_true, if_false]
          split <;> rfl

theorem mem_scanTail_iff {s : ScanState} {line out : Line} :
    out ∈ (scanTail s line).2 ↔ out = line ∧ isFinding line = true
      ∧ ¬ (s.suppressShutdownTail = true ∧ line = deadlySignalText) := by
  have hsummary : isFinding exitSummary = false := by decide
  unfold scanTail
  split
  · next h =>
      rw [Bool.and_eq_true, beq_iff_eq] at h
      simp [h]
  · next hdeadly =>
      rw [Bool.and_eq_true, beq_iff_eq] at hdeadly
      split
      · next h =>
          rw [Bool.and_eq_true, beq_iff_eq] at h
          simp [h, hsummary]
      · split
        · next hfinding => simp [hfinding, hdeadly]
        · next hfinding => simp [hfinding]

/-- What the program does on one line: it notes a launch, confirms an
exit, or handles any other line. -/
theorem scanLine_cases (dir : LogDirectory) (configId : Line) (s : ScanState) (line : Line) :
    (∃ launchId, IsLaunchId launchId ∧ line = launchLine launchId
      ∧ scanLine dir configId s line = (⟨launchId, false⟩, []))
    ∨ (∃ pid, IsNumber pid ∧ line = exitLine pid
      ∧ isShutdown dir configId s.launchId pid = true
      ∧ scanLine dir configId s line = (⟨s.launchId, true⟩,
        [shutdownMarker ++ ' ' :: shutdownIdentity configId s.launchId pid]))
    ∨ ((∀ launchId, IsLaunchId launchId → line ≠ launchLine launchId)
      ∧ (∀ pid, IsNumber pid → line = exitLine pid →
          isShutdown dir configId s.launchId pid = false)
      ∧ scanLine dir configId s line = scanTail s line) := by
  unfold scanLine
  cases hlaunch : capture launchPattern line with
  | some fields =>
      obtain ⟨launchId, hid, rfl, rfl⟩ := capture_launchPattern.mp hlaunch
      exact .inl ⟨launchId, hid, rfl, rfl⟩
  | none =>
      have hno : ∀ launchId, IsLaunchId launchId → line ≠ launchLine launchId := by
        rintro launchId hid rfl
        rw [capture_launchPattern.mpr ⟨launchId, hid, rfl, rfl⟩] at hlaunch
        cases hlaunch
      refine .inr ?_
      cases hexit : capture exitPattern line with
      | some fields =>
          obtain ⟨pid, hpid, rfl, rfl⟩ := capture_exitPattern.mp hexit
          by_cases hshutdown : isShutdown dir configId s.launchId pid = true
          · exact .inl ⟨pid, hpid, rfl, hshutdown, by simp only [hshutdown, if_true]⟩
          · refine .inr ⟨hno, ?_, by simp only [hshutdown]; rfl⟩
            intro pid' _ heq
            obtain rfl := exitLine_inj heq
            exact Bool.not_eq_true _ ▸ hshutdown
      | none =>
          refine .inr ⟨hno, ?_, rfl⟩
          rintro pid hpid rfl
          rw [capture_exitPattern.mpr ⟨pid, hpid, rfl, rfl⟩] at hexit
          cases hexit

/-! ## The lines so far -/

theorem mostRecentLaunch_append_launchLine {pre : List Line} {l l' : Line}
    (hl : IsLaunchId l) : MostRecentLaunch (pre ++ [launchLine l]) l' ↔ l' = l := by
  constructor
  · rintro ⟨_, before, after, hsplit, hafter⟩
    obtain rfl | ⟨after, line, rfl⟩ := List.eq_nil_or_concat after
    · exact (launchLine_inj (List.append_inj' hsplit rfl |>.2 |> List.head_eq_of_cons_eq)).symm
    · rw [List.concat_eq_append, ← List.cons_append, ← List.append_assoc] at hsplit
      have hline := List.head_eq_of_cons_eq (List.append_inj' hsplit rfl).2
      exact absurd hline.symm (hafter line (by simp) l hl)
  · rintro rfl
    exact ⟨hl, pre, [], rfl, by simp⟩

theorem mostRecentLaunch_append_other {pre : List Line} {line l : Line}
    (hline : ∀ l', IsLaunchId l' → line ≠ launchLine l') :
    MostRecentLaunch (pre ++ [line]) l ↔ MostRecentLaunch pre l := by
  constructor
  · rintro ⟨hl, before, after, hsplit, hafter⟩
    obtain rfl | ⟨after, last, rfl⟩ := List.eq_nil_or_concat after
    · exact absurd (List.head_eq_of_cons_eq (List.append_inj' hsplit rfl).2) (hline l hl)
    · rw [List.concat_eq_append, ← List.cons_append, ← List.append_assoc] at hsplit
      refine ⟨hl, before, after, (List.append_inj' hsplit rfl).1, fun x hx => hafter x ?_⟩
      rw [List.concat_eq_append]
      exact List.mem_append_left _ hx
  · rintro ⟨hl, before, after, rfl, hafter⟩
    refine ⟨hl, before, after ++ [line], by simp, fun x hx => ?_⟩
    rw [List.mem_append, List.mem_singleton] at hx
    obtain hx | rfl := hx
    · exact hafter x hx
    · exact hline

theorem not_mostRecentLaunch_nil {l : Line} : ¬ MostRecentLaunch [] l := by
  rintro ⟨-, before, after, h, -⟩
  simp at h

theorem inExitTail_append {pre : List Line} {line : Line} :
    InExitTail dir configId (pre ++ [line]) ↔ Excused dir configId pre line := by
  constructor
  · rintro ⟨before, exit, count, l, p, hsplit, hexit⟩
    cases count with
    | zero =>
        obtain ⟨rfl, heq⟩ := List.append_inj' hsplit rfl
        cases heq
        exact .inl ⟨l, p, hexit⟩
    | succ count =>
        rw [List.replicate_succ', ← List.cons_append, ← List.append_assoc] at hsplit
        obtain ⟨rfl, heq⟩ := List.append_inj' hsplit rfl
        cases heq
        exact .inr ⟨rfl, before, exit, count, l, p, rfl, hexit⟩
  · rintro (⟨l, p, hexit⟩ | ⟨rfl, before, exit, count, l, p, rfl, hexit⟩)
    · exact ⟨pre, line, 0, l, p, rfl, hexit⟩
    · exact ⟨before, exit, count + 1, l, p, by simp [List.replicate_succ'], hexit⟩

theorem not_inExitTail_nil : ¬ InExitTail dir configId [] := by
  rintro ⟨before, exit, count, l, p, h, -⟩
  simp at h

/-! ## The whole log -/

theorem launchId_append (pre : List Line) (line : Line) :
    (scanLine dir configId ((errorScanner dir configId).stateAfter pre) line).1
      = (errorScanner dir configId).stateAfter (pre ++ [line]) := by
  rw [LineMachine.stateAfter_append_single]
  rfl

/-- After any lines the program knows the most recent launch. -/
theorem stateAfter_launchId_iff (pre : List Line) : ∀ {l : Line}, IsLaunchId l →
    (((errorScanner dir configId).stateAfter pre).launchId = l ↔ MostRecentLaunch pre l) := by
  induction pre using List.reverseRecOn with
  | nil =>
      intro l hl
      refine ⟨fun h => absurd h.symm hl.1, fun h => absurd h not_mostRecentLaunch_nil⟩
  | append_singleton pre line ih =>
      intro l hl
      rw [← launchId_append]
      obtain ⟨l', hl', rfl, hstep⟩ | ⟨p, hp, rfl, -, hstep⟩ | ⟨hline, -, hstep⟩ :=
        scanLine_cases dir configId ((errorScanner dir configId).stateAfter pre) line
      · rw [hstep, mostRecentLaunch_append_launchLine hl']
        exact eq_comm
      · rw [hstep, mostRecentLaunch_append_other fun l' _ => exitLine_ne_launchLine p l']
        exact ih hl
      · rw [hstep, mostRecentLaunch_append_other hline, scanTail_fst]
        exact ih hl

/-- An exit line is confirmed when the state says so. -/
theorem confirmedExit_iff (hconfig : configId = [] ∨ IsNumber configId)
    {pre : List Line} {line l p : Line} :
    ConfirmedExit dir configId pre line l p ↔ line = exitLine p
      ∧ ((errorScanner dir configId).stateAfter pre).launchId = l
      ∧ isShutdown dir configId l p = true := by
  rw [isShutdown_iff hconfig]
  constructor
  · rintro ⟨rfl, hrecent, file, hfile, h⟩
    exact ⟨rfl, (stateAfter_launchId_iff pre h.launch).mpr hrecent, file, hfile, h⟩
  · rintro ⟨rfl, hstate, file, hfile, h⟩
    exact ⟨rfl, (stateAfter_launchId_iff pre h.launch).mp hstate, file, hfile, h⟩

/-- After any lines the program knows whether the run after a confirmed
exit line goes on. -/
theorem stateAfter_suppress_iff (hconfig : configId = [] ∨ IsNumber configId)
    (pre : List Line) :
    ((errorScanner dir configId).stateAfter pre).suppressShutdownTail = true
      ↔ InExitTail dir configId pre := by
  induction pre using List.reverseRecOn with
  | nil => exact ⟨fun h => (Bool.false_ne_true h).elim, fun h => absurd h not_inExitTail_nil⟩
  | append_singleton pre line ih =>
      rw [← launchId_append, inExitTail_append]
      obtain ⟨l, hl, rfl, hstep⟩ | ⟨p, hp, rfl, hshutdown, hstep⟩ | ⟨hline, hexit, hstep⟩ :=
        scanLine_cases dir configId ((errorScanner dir configId).stateAfter pre) line
      · rw [hstep]
        refine ⟨fun h => absurd h (by simp), ?_⟩
        rintro (⟨l', p, heq, -⟩ | ⟨heq, -⟩)
        · exact absurd heq.symm (exitLine_ne_launchLine p l)
        · exact absurd heq.symm (deadlySignal_ne_launchLine l)
      · rw [hstep]
        exact ⟨fun _ => .inl ⟨_, p, (confirmedExit_iff hconfig).mpr ⟨rfl, rfl, hshutdown⟩⟩,
          fun _ => rfl⟩
      · rw [hstep, scanTail_fst, Bool.and_eq_true, beq_iff_eq, ih]
        constructor
        · exact fun ⟨htail, heq⟩ => .inr ⟨heq, htail⟩
        · rintro (⟨l, p, hconfirmed⟩ | ⟨heq, htail⟩)
          · obtain ⟨rfl, rfl, hshutdown⟩ := (confirmedExit_iff hconfig).mp hconfirmed
            obtain ⟨-, -, file, -, hcandidate⟩ := hconfirmed
            rw [hexit p hcandidate.number rfl] at hshutdown
            cases hshutdown
          · exact ⟨htail, heq⟩

/-- What the program prints for a log: a marker for each confirmed exit
line, and every finding that is not excused. -/
theorem mem_scan_iff (hconfig : configId = [] ∨ IsNumber configId) {lines : List Line}
    {out : Line} :
    out ∈ (errorScanner dir configId).run lines ↔ ∃ pre line post,
      lines = pre ++ line :: post
        ∧ ((∃ l p, ConfirmedExit dir configId pre line l p
            ∧ out = shutdownMarker ++ ' ' :: shutdownIdentity configId l p)
          ∨ out = line ∧ isFinding line = true ∧ ¬ Excused dir configId pre line) := by
  rw [LineMachine.mem_run_iff]
  refine exists_congr fun pre => exists_congr fun line => exists_congr fun post =>
    and_congr_right fun _ => ?_
  change out ∈ (scanLine dir configId ((errorScanner dir configId).stateAfter pre) line).2 ↔ _
  obtain ⟨l, hl, rfl, hstep⟩ | ⟨p, hp, rfl, hshutdown, hstep⟩ | ⟨hline, hexit, hstep⟩ :=
    scanLine_cases dir configId ((errorScanner dir configId).stateAfter pre) line
  · rw [hstep]
    refine ⟨fun h => absurd h List.not_mem_nil, ?_⟩
    rintro (⟨l', p, ⟨heq, -⟩, -⟩ | ⟨-, hfinding, -⟩)
    · exact absurd heq.symm (exitLine_ne_launchLine p l)
    · rw [isFinding_launchLine hl] at hfinding
      cases hfinding
  · have hconfirmed := (confirmedExit_iff hconfig).mpr ⟨rfl, rfl, hshutdown⟩
    rw [hstep, List.mem_singleton]
    constructor
    · exact fun hout => .inl ⟨_, p, hconfirmed, hout⟩
    · rintro (⟨l', p', hconfirmed', rfl⟩ | ⟨-, -, hexcused⟩)
      · obtain ⟨heq, rfl, -⟩ := (confirmedExit_iff hconfig).mp hconfirmed'
        rw [exitLine_inj heq]
      · exact absurd (.inl ⟨_, p, hconfirmed⟩) hexcused
  · have hno : ∀ l p, ¬ ConfirmedExit dir configId pre line l p := by
      intro l p hconfirmed
      obtain ⟨rfl, rfl, hshutdown⟩ := (confirmedExit_iff hconfig).mp hconfirmed
      obtain ⟨-, -, file, -, hcandidate⟩ := hconfirmed
      rw [hexit p hcandidate.number rfl] at hshutdown
      cases hshutdown
    rw [hstep, mem_scanTail_iff, stateAfter_suppress_iff hconfig]
    constructor
    · rintro ⟨hout, hfinding, hkept⟩
      refine .inr ⟨hout, hfinding, ?_⟩
      rintro (⟨l, p, hconfirmed⟩ | ⟨heq, htail⟩)
      · exact hno l p hconfirmed
      · exact hkept ⟨htail, heq⟩
    · rintro (⟨l, p, hconfirmed, -⟩ | ⟨hout, hfinding, hexcused⟩)
      · exact absurd hconfirmed (hno l p)
      · exact ⟨hout, hfinding, fun ⟨htail, heq⟩ => hexcused (.inr ⟨heq, htail⟩)⟩

end LighttpdFuzz

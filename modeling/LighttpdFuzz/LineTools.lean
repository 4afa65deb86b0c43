import Mathlib.Data.Char
import Mathlib.Data.List.Lex
import Mathlib.Data.List.Dedup
import Mathlib.Data.List.TakeWhile
import Mathlib.Data.List.Infix
import Mathlib.Data.List.Induction

/-!
# Tools that work on lines of text

What a shell pipeline does to a file it does line by line. The pieces
needed to reason about such pipelines:

- anchored patterns with captured fields (`capture`): when every field
  is delimited by what follows it, capturing inverts writing the fields
  out (`capture_eq_some_iff`);
- substring tests and `s/lead[class]{min,max}/text/g` rewrites, which
  leave a text alone that no match can overlap (`Rewrite.keeps`);
- line machines, which read lines one after the other and print some
  (`LineMachine`): a printed line comes from one step of the machine,
  taken in the state that the earlier lines lead to (`mem_run_iff`);
- sorting without repetitions.

A file is the list of its lines, and a line is the list of its
characters, none of them a newline or NUL.
-/

namespace LineTools

/-- A line, or a part of one. -/
abbrev Line := List Char

/-! ## Anchored patterns -/

/-- One piece of an anchored pattern: fixed text, or a captured field of
one or more characters of a class. -/
inductive Piece where
  | text (s : Line)
  | field (cls : Char → Bool)

/-- `t` is the pattern with its fields filled in by `fs`. -/
inductive Filled : List Piece → List Line → Line → Prop
  | nil : Filled [] [] []
  | text {s : Line} {ps : List Piece} {fs : List Line} {t : Line} :
      Filled ps fs t → Filled (.text s :: ps) fs (s ++ t)
  | field {cls : Char → Bool} {f : Line} {ps : List Piece} {fs : List Line} {t : Line} :
      f ≠ [] → (∀ c ∈ f, cls c = true) → Filled ps fs t →
      Filled (.field cls :: ps) (f :: fs) (f ++ t)

/-- Match the whole of a line, returning its fields. -/
def capture : List Piece → Line → Option (List Line)
  | [], [] => some []
  | [], _ :: _ => none
  | .text s :: ps, t => if s <+: t then capture ps (t.drop s.length) else none
  | .field cls :: ps, t =>
      if t.takeWhile cls = [] then none
      else (capture ps (t.dropWhile cls)).map (t.takeWhile cls :: ·)

/-- What follows a field of the class cannot go on with the field. -/
def Stops (cls : Char → Bool) : List Piece → Prop
  | [] => True
  | .text (c :: _) :: _ => cls c = false
  | _ => False

/-- Every field is delimited by what follows it. -/
def Delimited : List Piece → Prop
  | [] => True
  | .text _ :: ps => Delimited ps
  | .field cls :: ps => Stops cls ps ∧ Delimited ps

theorem Filled.head_of_stops {cls : Char → Bool} {ps : List Piece} {fs : List Line}
    {t : Line} (h : Filled ps fs t) (hstops : Stops cls ps) :
    t.takeWhile cls = [] ∧ t.dropWhile cls = t := by
  cases h with
  | nil => exact ⟨rfl, rfl⟩
  | @text s ps fs t h =>
      cases s with
      | nil => exact hstops.elim
      | cons c s =>
          unfold Stops at hstops
          simp [hstops]
  | field _ _ _ => exact hstops.elim

theorem capture_of_filled {ps : List Piece} {fs : List Line} {t : Line}
    (h : Filled ps fs t) (hps : Delimited ps) : capture ps t = some fs := by
  induction h with
  | nil => rfl
  | @text s ps fs t h ih =>
      rw [capture, if_pos (List.prefix_append s t), List.drop_left]
      exact ih hps
  | @field cls f ps fs t hne hcls h ih =>
      obtain ⟨htake, hdrop⟩ := h.head_of_stops hps.1
      rw [capture, List.takeWhile_append_of_pos hcls, List.dropWhile_append_of_pos hcls,
        htake, hdrop, List.append_nil, if_neg hne, ih hps.2]
      rfl

theorem filled_of_capture : ∀ {ps : List Piece} {fs : List Line} {t : Line},
    capture ps t = some fs → Filled ps fs t
  | [], fs, [], h => by
      cases h
      exact .nil
  | [], _, _ :: _, h => by cases h
  | .text s :: ps, fs, t, h => by
      unfold capture at h
      split at h
      · next hpre =>
          obtain ⟨rest, rfl⟩ := hpre
          rw [List.drop_left] at h
          exact .text (filled_of_capture h)
      · cases h
  | .field cls :: ps, fs, t, h => by
      unfold capture at h
      split at h
      · cases h
      · next hne =>
          obtain ⟨rest, hrest, rfl⟩ := Option.map_eq_some_iff.mp h
          have hfield := Filled.field hne (fun c hc => List.mem_takeWhile_imp hc)
            (filled_of_capture hrest)
          rwa [List.takeWhile_append_dropWhile] at hfield

/-- Capturing inverts filling in, for a pattern that delimits its fields. -/
theorem capture_eq_some_iff {ps : List Piece} (hps : Delimited ps) {fs : List Line}
    {t : Line} : capture ps t = some fs ↔ Filled ps fs t :=
  ⟨filled_of_capture, fun h => capture_of_filled h hps⟩

@[simp] theorem filled_nil_iff {fs : List Line} {t : Line} :
    Filled [] fs t ↔ fs = [] ∧ t = [] := by
  constructor
  · intro h
    cases h
    exact ⟨rfl, rfl⟩
  · rintro ⟨rfl, rfl⟩
    exact .nil

@[simp] theorem filled_text_iff {s : Line} {ps : List Piece} {fs : List Line} {t : Line} :
    Filled (.text s :: ps) fs t ↔ ∃ u, Filled ps fs u ∧ t = s ++ u := by
  constructor
  · intro h
    cases h with
    | text h => exact ⟨_, h, rfl⟩
  · rintro ⟨u, h, rfl⟩
    exact .text h

@[simp] theorem filled_field_iff {cls : Char → Bool} {ps : List Piece} {fs : List Line}
    {t : Line} :
    Filled (.field cls :: ps) fs t ↔
      ∃ f gs u, (f ≠ [] ∧ ∀ c ∈ f, cls c = true) ∧ Filled ps gs u ∧ fs = f :: gs
        ∧ t = f ++ u := by
  constructor
  · intro h
    cases h with
    | field hne hcls h => exact ⟨_, _, _, ⟨hne, hcls⟩, h, rfl, rfl⟩
  · rintro ⟨f, gs, u, ⟨hne, hcls⟩, h, rfl, rfl⟩
    exact .field hne hcls h

/-! ## Separators -/

/-- Two ways to see a separator in a text, the left one at its first
occurrence: they agree, or the other one is a later occurrence. -/
theorem split_first {sep : Char} {a b a' b' : Line} (ha : sep ∉ a)
    (h : a ++ sep :: b = a' ++ sep :: b') :
    (a = a' ∧ b = b') ∨ ∃ m, a' = a ++ sep :: m ∧ b = m ++ sep :: b' := by
  obtain ⟨m, rfl, hm⟩ | ⟨m, rfl, hm⟩ := List.append_eq_append_iff.mp h
  · cases m with
    | nil =>
        rw [List.nil_append, List.cons.injEq] at hm
        exact .inl ⟨(List.append_nil a).symm, hm.2⟩
    | cons c m =>
        rw [List.cons_append, List.cons.injEq] at hm
        obtain ⟨rfl, rfl⟩ := hm
        exact .inr ⟨m, rfl, rfl⟩
  · cases m with
    | nil =>
        rw [List.nil_append, List.cons.injEq] at hm
        exact .inl ⟨List.append_nil a', hm.2.symm⟩
    | cons c m =>
        rw [List.cons_append, List.cons.injEq] at hm
        obtain ⟨rfl, -⟩ := hm
        exact absurd (List.mem_append_right a' List.mem_cons_self) ha

/-- The first occurrence of a separator is determined. -/
theorem split_unique {sep : Char} {a b a' b' : Line} (ha : sep ∉ a) (ha' : sep ∉ a')
    (h : a ++ sep :: b = a' ++ sep :: b') : a = a' ∧ b = b' := by
  obtain heq | ⟨m, rfl, -⟩ := split_first ha h
  · exact heq
  · exact absurd (List.mem_append_right a List.mem_cons_self) ha'

/-! ## Rewriting -/

/-- `s/lead[cls]{atLeast,atMost}/result/g`; without `atMost` the run of
characters of the class has no upper bound. -/
structure Rewrite where
  lead : Line
  cls : Char → Bool
  atLeast : Nat
  atMost : Option Nat
  result : Line
  lead_ne_nil : lead ≠ []

namespace Rewrite

/-- The length of the match at the front of `t`: the longest one. -/
def matchLength (r : Rewrite) (t : Line) : Option Nat :=
  if r.lead <+: t then
    let run := ((t.drop r.lead.length).takeWhile r.cls).length
    let run := match r.atMost with
      | none => run
      | some n => min run n
    if r.atLeast ≤ run then some (r.lead.length + run) else none
  else none

/-- Rewrite from left to right; `skip` characters still belong to the
match before. -/
def applyFrom (r : Rewrite) : Nat → Line → Line
  | _, [] => []
  | skip + 1, _ :: t => applyFrom r skip t
  | 0, c :: t =>
      match r.matchLength (c :: t) with
      | some n => r.result ++ applyFrom r (n - 1) t
      | none => c :: applyFrom r 0 t

def apply (r : Rewrite) (t : Line) : Line :=
  r.applyFrom 0 t

/-- No match of `r` can overlap the text `p`: its first character is in
no match that begins earlier, and no match begins inside it. -/
def Avoids (r : Rewrite) : Line → Prop
  | [] => False
  | c :: p => c ∉ r.lead ∧ r.cls c = false ∧
      ∀ s ∈ (c :: p).tails, s ≠ [] → ¬ r.lead <+: s ∧ ¬ s <+: r.lead

instance (r : Rewrite) (p : Line) : Decidable (r.Avoids p) := by
  cases p <;> unfold Avoids <;> infer_instance

theorem mem_of_matchLength {r : Rewrite} {t : Line} {n : Nat}
    (h : r.matchLength t = some n) : ∀ c ∈ t.take n, c ∈ r.lead ∨ r.cls c = true := by
  intro c hc
  unfold matchLength at h
  split at h
  · next hlead =>
      obtain ⟨rest, rfl⟩ := hlead
      simp only [List.drop_left] at h
      generalize hrun : (match r.atMost with
        | none => (rest.takeWhile r.cls).length
        | some n => min (rest.takeWhile r.cls).length n) = run at h
      have hle : run ≤ (rest.takeWhile r.cls).length := by
        subst hrun
        split
        · exact le_rfl
        · exact Nat.min_le_left _ _
      split at h
      · obtain rfl := Option.some.inj h
        rw [List.take_length_add_append, List.mem_append] at hc
        refine hc.imp id fun hc => ?_
        have hpre : rest.take run <+: rest.takeWhile r.cls :=
          List.prefix_of_prefix_length_le (List.take_prefix _ _) (List.takeWhile_prefix _)
            ((List.length_take_le _ _).trans hle)
        exact List.mem_takeWhile_imp (hpre.subset hc)
      · cases h
  · cases h

/-- Inside a text that is avoided, nothing matches. -/
theorem applyFrom_inside {r : Rewrite} (b : Line) : ∀ {s : Line},
    (∀ u, u <:+ s → u ≠ [] → ¬ r.lead <+: u ∧ ¬ u <+: r.lead) →
      r.applyFrom 0 (s ++ b) = s ++ r.applyFrom 0 b
  | [], _ => rfl
  | c :: s, h => by
      have hlead : ¬ r.lead <+: c :: (s ++ b) := by
        intro hlead
        have hcs : c :: s <+: c :: (s ++ b) := List.prefix_append (c :: s) b
        obtain ⟨hno, hno'⟩ := h (c :: s) (List.suffix_refl _) (by simp)
        exact (List.prefix_or_prefix_of_prefix hlead hcs).elim hno hno'
      have hnone : r.matchLength (c :: (s ++ b)) = none := by rw [matchLength, if_neg hlead]
      rw [List.cons_append, applyFrom, hnone, List.cons_append,
        applyFrom_inside b fun u hu => h u (hu.trans (List.suffix_cons c s))]

theorem infix_applyFrom {r : Rewrite} {p : Line} (hp : r.Avoids p) (b : Line) :
    ∀ (a : Line) (skip : Nat), skip ≤ a.length → p <:+: r.applyFrom skip (a ++ (p ++ b))
  | [], skip, hskip => by
      obtain rfl := Nat.le_zero.mp hskip
      cases p with
      | nil => exact hp.elim
      | cons c p =>
          have hinside := applyFrom_inside b fun u hu =>
            hp.2.2 u ((List.mem_tails u (c :: p)).mpr hu)
          rw [List.nil_append, hinside]
          exact ⟨[], r.applyFrom 0 b, rfl⟩
  | x :: a, skip + 1, hskip => by
      rw [List.cons_append, applyFrom]
      exact infix_applyFrom hp b a skip (Nat.le_of_succ_le_succ hskip)
  | x :: a, 0, _ => by
      rw [List.cons_append, applyFrom]
      split
      · next n hmatch =>
          -- a match of n characters that reached into p would hold p's first character
          have hn : n - 1 ≤ a.length := by
            by_contra hlong
            cases p with
            | nil => exact hp.elim
            | cons c p =>
                have hc : c ∈ (x :: (a ++ (c :: p ++ b))).take n := by
                  obtain ⟨k, rfl⟩ : ∃ k, n = (x :: a).length + (k + 1) :=
                    ⟨n - 1 - a.length - 1, by rw [List.length_cons]; omega⟩
                  rw [← List.cons_append, List.take_length_add_append, List.mem_append]
                  exact .inr List.mem_cons_self
                rcases mem_of_matchLength hmatch c hc with hlead | hcls
                · exact hp.1 hlead
                · rw [hp.2.1] at hcls
                  cases hcls
          obtain ⟨u, v, huv⟩ := infix_applyFrom hp b a (n - 1) hn
          exact ⟨r.result ++ u, v, by rw [← huv]; simp only [List.append_assoc]⟩
      · obtain ⟨u, v, huv⟩ := infix_applyFrom hp b a 0 (Nat.zero_le _)
        exact ⟨x :: u, v, by rw [← huv]; rfl⟩

/-- A rewrite leaves a text it avoids where it is. -/
theorem keeps {r : Rewrite} {p t : Line} (hp : r.Avoids p) (h : p <:+: t) :
    p <:+: r.apply t := by
  obtain ⟨a, b, rfl⟩ := h
  rw [List.append_assoc]
  exact infix_applyFrom hp b a 0 (Nat.zero_le _)

end Rewrite

/-! ## Machines that read lines -/

/-- A program that reads lines one after the other, keeps a state and
prints lines (`awk` with one rule list). -/
structure LineMachine (σ : Type*) where
  start : σ
  step : σ → Line → σ × List Line

namespace LineMachine

variable {σ : Type*} {m : LineMachine σ}

/-- The state after reading some lines. -/
def stateAfter (m : LineMachine σ) (lines : List Line) : σ :=
  lines.foldl (fun s line => (m.step s line).1) m.start

def runFrom (m : LineMachine σ) (s : σ) : List Line → List Line
  | [] => []
  | line :: lines => (m.step s line).2 ++ m.runFrom (m.step s line).1 lines

/-- What the machine prints for a whole file. -/
def run (m : LineMachine σ) (lines : List Line) : List Line :=
  m.runFrom m.start lines

@[simp] theorem stateAfter_nil : m.stateAfter [] = m.start := rfl

@[simp] theorem stateAfter_append_single (pre : List Line) (line : Line) :
    m.stateAfter (pre ++ [line]) = (m.step (m.stateAfter pre) line).1 := by
  simp [stateAfter]

theorem runFrom_stateAfter_append (pre lines : List Line) :
    m.run (pre ++ lines) = m.run pre ++ m.runFrom (m.stateAfter pre) lines := by
  have h : ∀ (pre : List Line) (s : σ), m.runFrom s (pre ++ lines)
      = m.runFrom s pre
        ++ m.runFrom (pre.foldl (fun s line => (m.step s line).1) s) lines := by
    intro pre
    induction pre with
    | nil => intro s; rfl
    | cons line pre ih =>
        intro s
        rw [List.cons_append, runFrom, runFrom, ih, List.append_assoc]
        rfl
  exact h pre m.start

/-- A printed line was printed by one step, in the state its earlier
lines lead to. -/
theorem mem_run_iff {lines : List Line} {out : Line} :
    out ∈ m.run lines ↔ ∃ pre line post, lines = pre ++ line :: post
      ∧ out ∈ (m.step (m.stateAfter pre) line).2 := by
  constructor
  · induction lines using List.reverseRecOn with
    | nil => intro h; cases h
    | append_singleton lines line ih =>
        rw [runFrom_stateAfter_append, List.mem_append]
        rintro (h | h)
        · obtain ⟨pre, line', post, rfl, hout⟩ := ih h
          exact ⟨pre, line', post ++ [line], by simp, hout⟩
        · rw [runFrom, runFrom, List.append_nil] at h
          exact ⟨lines, line, [], rfl, h⟩
  · rintro ⟨pre, line, post, rfl, hout⟩
    rw [runFrom_stateAfter_append, List.mem_append, runFrom, List.mem_append]
    exact .inr (.inl hout)

end LineMachine

/-! ## The lines of a file -/

def linesFrom (line : Line) : List Char → List Line
  | [] => if line = [] then [] else [line]
  | c :: t => if c = '\n' then line :: linesFrom [] t else linesFrom (line ++ [c]) t

/-- The lines that the tools see in a file; the last one need not end. -/
def linesOf (content : List Char) : List Line := linesFrom [] content

/-! ## Sorting -/

/-- `sort -u`. -/
def sortUnique (lines : List Line) : List Line :=
  lines.dedup.mergeSort (fun a b => decide (a ≤ b))

@[simp] theorem mem_sortUnique {lines : List Line} {l : Line} :
    l ∈ sortUnique lines ↔ l ∈ lines := by
  rw [sortUnique, List.mem_mergeSort, List.mem_dedup]

theorem nodup_sortUnique (lines : List Line) : (sortUnique lines).Nodup := by
  rw [sortUnique, (List.mergeSort_perm _ _).nodup_iff]
  exact List.nodup_dedup lines

end LineTools

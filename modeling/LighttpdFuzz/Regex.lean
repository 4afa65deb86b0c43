import Mathlib.Data.List.Basic
import Mathlib.Data.List.TakeWhile

/-!
# Backtracking regular expressions

Patterns as a backtracking engine reads them: alternatives are tried in
order, repetitions of a character class take as much as they can and give
back one character at a time. `Regex.allMatches` lists all ways in which a
pattern matches at the front of a text, in the order in which the engine
would try them; the engine reports the first.

What a match is does not depend on that order, so most facts are about
membership: `mem_seq`, `mem_alt`, `mem_many`, `mem_literal` say what the
members of the list are. `cut` takes a text apart at the matches of a
pattern (`cut_some`).
-/

inductive Regex where
  | empty
  /-- One character of a class. -/
  | char (cls : Char → Bool)
  /-- A greedy repetition of a class. -/
  | many (cls : Char → Bool) (atLeast : Nat) (atMost : Option Nat)
  | seq (r s : Regex)
  | alt (r s : Regex)
  /-- A numbered group. -/
  | group (index : Nat) (r : Regex)
  /-- `^`, at the start of any line -/
  | lineStart
  /-- `$`, at the end of any line -/
  | lineEnd
  /-- `\b`, between a word character and another one -/
  | wordEdge (isWord : Char → Bool)

namespace Regex

/-- One way in which a pattern matches at the front of a text. -/
structure Match where
  taken : List Char
  rest : List Char
  groups : List (Nat × List Char)
  deriving DecidableEq

/-- A match that takes nothing. -/
def Match.nothing (t : List Char) : Match := ⟨[], t, []⟩

/-- One match after the other. -/
def Match.append (m m' : Match) : Match := ⟨m.taken ++ m'.taken, m'.rest, m.groups ++ m'.groups⟩

/-- The text of a group; `none` if it took no part in the match. -/
def Match.group (m : Match) (index : Nat) : Option (List Char) := m.groups.lookup index

/-- The character before what comes after a match. -/
def Match.last (m : Match) (prev : Option Char) : Option Char := m.taken.getLast?.or prev

/-- All matches at the front of a text that follows the character `prev`,
the preferred ones first. -/
def allMatches : Regex → Option Char → List Char → List Match
  | empty, _, t => [.nothing t]
  | char _, _, [] => []
  | char cls, _, c :: t => if cls c then [⟨[c], t, []⟩] else []
  | many cls atLeast atMost, _, t =>
      let run := (t.takeWhile cls).length
      let most := match atMost with
        | none => run
        | some n => min run n
      ((List.range (most + 1)).reverse.filter (atLeast ≤ ·)).map fun n =>
        ⟨t.take n, t.drop n, []⟩
  | seq r s, prev, t =>
      (r.allMatches prev t).flatMap fun m => (s.allMatches (m.last prev) m.rest).map m.append
  | alt r s, prev, t => r.allMatches prev t ++ s.allMatches prev t
  | group index r, prev, t =>
      (r.allMatches prev t).map fun m => { m with groups := (index, m.taken) :: m.groups }
  | lineStart, prev, t => if prev = none ∨ prev = some '\n' then [.nothing t] else []
  | lineEnd, _, t => if t = [] ∨ t.head? = some '\n' then [.nothing t] else []
  | wordEdge isWord, prev, t => if prev.any isWord ≠ t.head?.any isWord then [.nothing t] else []

/-- The text itself. -/
def literal : List Char → Regex
  | [] => empty
  | c :: s => seq (char (· == c)) (literal s)

/-- Patterns one after the other. -/
def seqAll (rs : List Regex) : Regex := rs.foldr seq empty

/-- A pattern a fixed number of times. -/
def times (count : Nat) (r : Regex) : Regex := seqAll (List.replicate count r)

/-! ## What matches -/

attribute [local simp] allMatches

variable {prev : Option Char} {t taken rest : List Char} {groups : List (Nat × List Char)}

@[simp] theorem mem_empty : ⟨taken, rest, groups⟩ ∈ empty.allMatches prev t
    ↔ taken = [] ∧ rest = t ∧ groups = [] := by
  rw [allMatches, List.mem_singleton, Match.nothing, Match.mk.injEq]

@[simp] theorem mem_seq {r s : Regex} : ⟨taken, rest, groups⟩ ∈ (seq r s).allMatches prev t
    ↔ ∃ taken₁ rest₁ groups₁ taken₂ groups₂, ⟨taken₁, rest₁, groups₁⟩ ∈ r.allMatches prev t
      ∧ ⟨taken₂, rest, groups₂⟩ ∈ s.allMatches (taken₁.getLast?.or prev) rest₁
      ∧ taken = taken₁ ++ taken₂ ∧ groups = groups₁ ++ groups₂ := by
  simp only [allMatches, List.mem_flatMap, List.mem_map]
  constructor
  · rintro ⟨⟨taken₁, rest₁, groups₁⟩, h₁, ⟨taken₂, rest₂, groups₂⟩, h₂, happend⟩
    obtain ⟨rfl, rfl, rfl⟩ := Match.mk.inj happend
    exact ⟨taken₁, rest₁, groups₁, taken₂, groups₂, h₁, h₂, rfl, rfl⟩
  · rintro ⟨taken₁, rest₁, groups₁, taken₂, groups₂, h₁, h₂, rfl, rfl⟩
    exact ⟨_, h₁, _, h₂, rfl⟩

@[simp] theorem mem_alt {r s : Regex} {m : Match} : m ∈ (alt r s).allMatches prev t
    ↔ m ∈ r.allMatches prev t ∨ m ∈ s.allMatches prev t :=
  List.mem_append

@[simp] theorem mem_group {index : Nat} {r : Regex} :
    ⟨taken, rest, groups⟩ ∈ (group index r).allMatches prev t
      ↔ ∃ groups₁, ⟨taken, rest, groups₁⟩ ∈ r.allMatches prev t
        ∧ groups = (index, taken) :: groups₁ := by
  rw [allMatches, List.mem_map]
  constructor
  · rintro ⟨⟨taken₁, rest₁, groups₁⟩, h, hgroup⟩
    obtain ⟨rfl, rfl, rfl⟩ := Match.mk.inj hgroup
    exact ⟨groups₁, h, rfl⟩
  · rintro ⟨groups₁, h, rfl⟩
    exact ⟨_, h, rfl⟩

@[simp] theorem mem_lineStart : ⟨taken, rest, groups⟩ ∈ lineStart.allMatches prev t
    ↔ (prev = none ∨ prev = some '\n') ∧ taken = [] ∧ rest = t ∧ groups = [] := by
  rw [allMatches, Match.nothing]
  split <;> simp_all

@[simp] theorem mem_lineEnd : ⟨taken, rest, groups⟩ ∈ lineEnd.allMatches prev t
    ↔ (t = [] ∨ t.head? = some '\n') ∧ taken = [] ∧ rest = t ∧ groups = [] := by
  rw [allMatches, Match.nothing]
  split <;> simp_all

@[simp] theorem mem_char {cls : Char → Bool} :
    ⟨taken, rest, groups⟩ ∈ (char cls).allMatches prev t
      ↔ ∃ c, cls c = true ∧ t = c :: rest ∧ taken = [c] ∧ groups = [] := by
  cases t with
  | nil => simp
  | cons c t =>
      unfold allMatches
      by_cases hc : cls c = true
      · rw [if_pos hc, List.mem_singleton, Match.mk.injEq]
        constructor
        · rintro ⟨rfl, rfl, rfl⟩
          exact ⟨c, hc, rfl, rfl, rfl⟩
        · rintro ⟨c', -, hcons, htaken, hgroups⟩
          obtain ⟨rfl, rfl⟩ := List.cons.inj hcons
          exact ⟨htaken, rfl, hgroups⟩
      · rw [if_neg hc]
        constructor
        · intro h
          cases h
        · rintro ⟨c', hc', hcons, -⟩
          rw [(List.cons.inj hcons).1] at hc
          exact absurd hc' hc

/-- An unbounded repetition. -/
theorem mem_many {cls : Char → Bool} {atLeast : Nat} :
    ⟨taken, rest, groups⟩ ∈ (many cls atLeast none).allMatches prev t
      ↔ t = taken ++ rest ∧ (∀ c ∈ taken, cls c = true) ∧ atLeast ≤ taken.length
        ∧ groups = [] := by
  simp only [allMatches, List.mem_map, List.mem_filter, List.mem_reverse, List.mem_range,
    decide_eq_true_eq, Match.mk.injEq]
  constructor
  · rintro ⟨n, ⟨hn, hleast⟩, rfl, rfl, rfl⟩
    have hle : n ≤ (t.takeWhile cls).length := Nat.le_of_lt_succ hn
    have hfront : t.take n <+: t.takeWhile cls :=
      List.prefix_of_prefix_length_le (List.take_prefix _ _) (List.takeWhile_prefix _)
        ((List.length_take_le _ _).trans hle)
    have hlen : n ≤ t.length := hle.trans (List.takeWhile_prefix cls).length_le
    refine ⟨(List.take_append_drop n t).symm, fun c hc => ?_, ?_, rfl⟩
    · exact List.mem_takeWhile_imp (hfront.subset hc)
    · rwa [List.length_take_of_le hlen]
  · rintro ⟨rfl, hall, hleast, rfl⟩
    refine ⟨taken.length, ⟨?_, hleast⟩, List.take_left, List.drop_left, rfl⟩
    rw [List.takeWhile_append_of_pos hall, List.length_append]
    omega

/-- A bounded repetition. -/
theorem mem_many_bounded {cls : Char → Bool} {atLeast most : Nat} :
    ⟨taken, rest, groups⟩ ∈ (many cls atLeast (some most)).allMatches prev t
      ↔ ⟨taken, rest, groups⟩ ∈ (many cls atLeast none).allMatches prev t
        ∧ taken.length ≤ most := by
  simp only [allMatches, List.mem_map, List.mem_filter, List.mem_reverse, List.mem_range,
    decide_eq_true_eq, Match.mk.injEq]
  constructor
  · rintro ⟨n, ⟨hn, hleast⟩, rfl, rfl, rfl⟩
    refine ⟨⟨n, ⟨by omega, hleast⟩, rfl, rfl, rfl⟩, (List.length_take_le n t).trans (by omega)⟩
  · rintro ⟨⟨n, ⟨hn, hleast⟩, rfl, rfl, rfl⟩, hmost⟩
    have hlen := (List.takeWhile_prefix cls (l := t)).length_le
    rw [List.length_take_of_le (by omega)] at hmost
    exact ⟨n, ⟨by omega, hleast⟩, rfl, rfl, rfl⟩

/-- A bounded repetition takes what an unbounded one can take. -/
theorem mem_many_of_mem {cls : Char → Bool} {atLeast : Nat} {atMost : Option Nat} {m : Match}
    (h : m ∈ (many cls atLeast atMost).allMatches prev t) :
    m ∈ (many cls atLeast none).allMatches prev t := by
  simp only [allMatches, List.mem_map, List.mem_filter, List.mem_reverse, List.mem_range] at h ⊢
  obtain ⟨n, ⟨hn, hleast⟩, rfl⟩ := h
  refine ⟨n, ⟨?_, hleast⟩, rfl⟩
  cases atMost with
  | none => exact hn
  | some most => exact hn.trans_le (Nat.succ_le_succ (Nat.min_le_left _ _))

@[simp] theorem mem_literal : ∀ {s : List Char} {prev : Option Char} {t taken : List Char}
    {groups : List (Nat × List Char)}, ⟨taken, rest, groups⟩ ∈ (literal s).allMatches prev t
      ↔ taken = s ∧ t = s ++ rest ∧ groups = []
  | [], prev, t, taken, groups => by
      rw [literal, mem_empty, List.nil_append, eq_comm (a := rest)]
  | c :: s, prev, t, taken, groups => by
      simp only [literal, mem_seq, mem_char, mem_literal, beq_iff_eq]
      constructor
      · rintro ⟨_, _, _, _, _, ⟨_, rfl, rfl, rfl, rfl⟩, ⟨rfl, rfl, rfl⟩, rfl, rfl⟩
        exact ⟨rfl, rfl, rfl⟩
      · rintro ⟨rfl, rfl, rfl⟩
        exact ⟨[c], s ++ rest, [], s, [], ⟨c, rfl, rfl, rfl, rfl⟩, ⟨rfl, rfl, rfl⟩, rfl, rfl⟩

/-- A text in front of a pattern. -/
theorem mem_seq_literal {s : List Char} {r : Regex} :
    ⟨taken, rest, groups⟩ ∈ (seq (literal s) r).allMatches prev t
      ↔ ∃ taken' t', t = s ++ t' ∧ taken = s ++ taken'
        ∧ ⟨taken', rest, groups⟩ ∈ r.allMatches (s.getLast?.or prev) t' := by
  rw [mem_seq]
  constructor
  · rintro ⟨_, t', _, taken', _, hs, hr, rfl, rfl⟩
    obtain ⟨rfl, rfl, rfl⟩ := mem_literal.mp hs
    exact ⟨taken', t', rfl, rfl, hr⟩
  · rintro ⟨taken', t', rfl, rfl, hr⟩
    exact ⟨s, t', [], taken', groups, mem_literal.mpr ⟨rfl, rfl, rfl⟩, hr, rfl, rfl⟩

/-- A character in front of a pattern. -/
theorem mem_seq_char {cls : Char → Bool} {r : Regex} :
    ⟨taken, rest, groups⟩ ∈ (seq (char cls) r).allMatches prev t
      ↔ ∃ c taken' t', cls c = true ∧ t = c :: t' ∧ taken = c :: taken'
        ∧ ⟨taken', rest, groups⟩ ∈ r.allMatches (some c) t' := by
  rw [mem_seq]
  constructor
  · rintro ⟨_, t', _, taken', _, hc, hr, rfl, rfl⟩
    obtain ⟨c, hcls, rfl, rfl, rfl⟩ := mem_char.mp hc
    exact ⟨c, taken', t', hcls, rfl, rfl, hr⟩
  · rintro ⟨c, taken', t', hcls, rfl, rfl, hr⟩
    exact ⟨[c], t', [], taken', groups, mem_char.mpr ⟨c, hcls, rfl, rfl, rfl⟩, hr, rfl, rfl⟩

/-- A repetition in front of a pattern. -/
theorem mem_seq_many {cls : Char → Bool} {atLeast : Nat} {r : Regex} :
    ⟨taken, rest, groups⟩ ∈ (seq (many cls atLeast none) r).allMatches prev t
      ↔ ∃ run taken' t', (∀ c ∈ run, cls c = true) ∧ atLeast ≤ run.length ∧ t = run ++ t'
        ∧ taken = run ++ taken'
        ∧ ⟨taken', rest, groups⟩ ∈ r.allMatches (run.getLast?.or prev) t' := by
  rw [mem_seq]
  constructor
  · rintro ⟨run, t', _, taken', _, hrun, hr, rfl, rfl⟩
    obtain ⟨rfl, hall, hleast, rfl⟩ := mem_many.mp hrun
    exact ⟨run, taken', t', hall, hleast, rfl, rfl, hr⟩
  · rintro ⟨run, taken', t', hall, hleast, rfl, rfl, hr⟩
    exact ⟨run, t', [], taken', groups, mem_many.mpr ⟨rfl, hall, hleast, rfl⟩, hr, rfl, rfl⟩

/-- A repetition in a group, in front of a pattern. -/
theorem mem_seq_group_many {index : Nat} {cls : Char → Bool} {atLeast : Nat} {r : Regex} :
    ⟨taken, rest, groups⟩ ∈ (seq (group index (many cls atLeast none)) r).allMatches prev t
      ↔ ∃ run taken' t' groups', (∀ c ∈ run, cls c = true) ∧ atLeast ≤ run.length
        ∧ t = run ++ t' ∧ taken = run ++ taken' ∧ groups = (index, run) :: groups'
        ∧ ⟨taken', rest, groups'⟩ ∈ r.allMatches (run.getLast?.or prev) t' := by
  rw [mem_seq]
  constructor
  · rintro ⟨run, t', _, taken', groups', hrun, hr, rfl, rfl⟩
    obtain ⟨_, hmany, rfl⟩ := mem_group.mp hrun
    obtain ⟨rfl, hall, hleast, rfl⟩ := mem_many.mp hmany
    exact ⟨run, taken', t', groups', hall, hleast, rfl, rfl, rfl, hr⟩
  · rintro ⟨run, taken', t', groups', hall, hleast, rfl, rfl, rfl, hr⟩
    exact ⟨run, t', [(index, run)], taken', groups',
      mem_group.mpr ⟨[], mem_many.mpr ⟨rfl, hall, hleast, rfl⟩, rfl⟩, hr, rfl, rfl⟩

/-- The start of a line in front of a pattern. -/
theorem mem_seq_lineStart {r : Regex} :
    ⟨taken, rest, groups⟩ ∈ (seq lineStart r).allMatches prev t
      ↔ (prev = none ∨ prev = some '\n') ∧ ⟨taken, rest, groups⟩ ∈ r.allMatches prev t := by
  rw [mem_seq]
  constructor
  · rintro ⟨_, _, _, _, _, hstart, hr, rfl, rfl⟩
    obtain ⟨hprev, rfl, rfl, rfl⟩ := mem_lineStart.mp hstart
    exact ⟨hprev, hr⟩
  · rintro ⟨hprev, hr⟩
    exact ⟨[], t, [], taken, groups, mem_lineStart.mpr ⟨hprev, rfl, rfl, rfl⟩, hr, rfl, rfl⟩

theorem mem_seq_empty {r : Regex} :
    ⟨taken, rest, groups⟩ ∈ (seq r empty).allMatches prev t
      ↔ ⟨taken, rest, groups⟩ ∈ r.allMatches prev t := by
  rw [mem_seq]
  constructor
  · rintro ⟨_, _, _, _, _, hr, hempty, rfl, rfl⟩
    obtain ⟨rfl, rfl, rfl⟩ := mem_empty.mp hempty
    rwa [List.append_nil, List.append_nil]
  · intro hr
    exact ⟨taken, rest, groups, [], [], hr, mem_empty.mpr ⟨rfl, rfl, rfl⟩,
      (List.append_nil taken).symm, (List.append_nil groups).symm⟩

/-- The pattern matches at the front of a text, whatever stands before it. -/
def Fits (r : Regex) (t : List Char) : Prop := ∀ prev, ∃ m, m ∈ r.allMatches prev t

theorem Fits.empty : Fits .empty t := fun _ => ⟨⟨[], t, []⟩, mem_empty.mpr ⟨rfl, rfl, rfl⟩⟩

theorem Fits.literal {s : List Char} {r : Regex} (h : Fits r t) :
    Fits (.seq (.literal s) r) (s ++ t) := fun _ =>
  let ⟨_, hm⟩ := h _
  ⟨_, mem_seq_literal.mpr ⟨_, t, rfl, rfl, hm⟩⟩

theorem Fits.many {cls : Char → Bool} {atLeast : Nat} {run : List Char} {r : Regex}
    (hrun : ∀ c ∈ run, cls c = true) (hleast : atLeast ≤ run.length) (h : Fits r t) :
    Fits (.seq (.many cls atLeast none) r) (run ++ t) := fun _ =>
  let ⟨_, hm⟩ := h _
  ⟨_, mem_seq_many.mpr ⟨run, _, t, hrun, hleast, rfl, rfl, hm⟩⟩

theorem Fits.group_many {index : Nat} {cls : Char → Bool} {atLeast : Nat} {run : List Char}
    {r : Regex} (hrun : ∀ c ∈ run, cls c = true) (hleast : atLeast ≤ run.length) (h : Fits r t) :
    Fits (.seq (.group index (.many cls atLeast none)) r) (run ++ t) := fun _ =>
  let ⟨_, hm⟩ := h _
  ⟨_, mem_seq_group_many.mpr ⟨run, _, t, _, hrun, hleast, rfl, rfl, rfl, hm⟩⟩

/-! ## Searching -/

/-- The match that the engine reports at the front of a text. -/
def first (r : Regex) (prev : Option Char) (t : List Char) : Option Match :=
  (r.allMatches prev t).head?

/-- The first place where the pattern matches: the text before it, and
the match. -/
def search (r : Regex) : Option Char → List Char → Option (List Char × Match)
  | prev, [] => (r.first prev []).map fun m => ([], m)
  | prev, c :: t =>
      match r.first prev (c :: t) with
      | some m => some ([], m)
      | none => (r.search (some c) t).map fun found => (c :: found.1, found.2)

/-- The text before the first match, and every match with the text up to
the next one. Empty matches do not cut. -/
def cut (r : Regex) (prev : Option Char) (t : List Char) : List Char × List (Match × List Char) :=
  match r.search prev t with
  | none => (t, [])
  | some (skipped, m) =>
      if _h : m.rest.length < t.length then
        let after := r.cut ((skipped ++ m.taken).getLast?.or prev) m.rest
        (skipped, (m, after.1) :: after.2)
      else (t, [])
termination_by t.length

variable {m : Match}

theorem first_eq_some_of_unique {r : Regex} (hm : m ∈ r.allMatches prev t)
    (hunique : ∀ m' ∈ r.allMatches prev t, m' = m) : r.first prev t = some m := by
  unfold first
  cases h : r.allMatches prev t with
  | nil =>
      rw [h] at hm
      cases hm
  | cons m' more => rw [List.head?_cons, hunique m' (by rw [h]; exact List.mem_cons_self)]

theorem mem_of_first {r : Regex} (h : r.first prev t = some m) : m ∈ r.allMatches prev t :=
  List.mem_of_mem_head? h

theorem first_isSome_of_mem {r : Regex} (hm : m ∈ r.allMatches prev t) :
    ∃ m', r.first prev t = some m' :=
  ⟨_, List.head?_eq_some_head (List.ne_nil_of_mem hm)⟩

theorem first_eq_none {r : Regex} (h : ∀ m, m ∉ r.allMatches prev t) : r.first prev t = none := by
  rw [first, List.eq_nil_iff_forall_not_mem.mpr h]
  rfl

/-- Nothing matches where `a` is, and `m` behind it. -/
theorem search_append {r : Regex} : ∀ {a : List Char} {prev : Option Char},
    (∀ a₁ a₂, a = a₁ ++ a₂ → a₂ ≠ [] → r.first (a₁.getLast?.or prev) (a₂ ++ t) = none) →
    r.first (a.getLast?.or prev) t = some m → r.search prev (a ++ t) = some (a, m)
  | [], prev, _, hm => by
      rw [List.getLast?_nil, Option.none_or] at hm
      cases t with
      | nil => rw [List.append_nil, search, hm]; rfl
      | cons c t => rw [List.nil_append, search, hm]
  | c :: a, prev, hnone, hm => by
      have hhere := hnone [] (c :: a) rfl (List.cons_ne_nil c a)
      rw [List.getLast?_nil, Option.none_or] at hhere
      have hlast : ∀ l : List Char, (c :: l).getLast?.or prev = l.getLast?.or (some c) := by
        intro l
        rw [List.getLast?_cons]
        cases l.getLast? <;> rfl
      rw [hlast] at hm
      have hrest := @search_append r a (some c) (fun a₁ a₂ ha hne => by
        have h := hnone (c :: a₁) a₂ (by rw [ha, List.cons_append]) hne
        rwa [hlast] at h) hm
      rw [List.cons_append] at hhere ⊢
      rw [search, hhere]
      simp only [hrest, Option.map_some]

theorem search_none {r : Regex} : ∀ {a : List Char} {prev : Option Char},
    (∀ a₁ a₂, a = a₁ ++ a₂ → r.first (a₁.getLast?.or prev) a₂ = none) → r.search prev a = none
  | [], prev, hnone => by
      have hhere := hnone [] [] rfl
      rw [List.getLast?_nil, Option.none_or] at hhere
      rw [search, hhere]
      rfl
  | c :: a, prev, hnone => by
      have hhere := hnone [] (c :: a) rfl
      rw [List.getLast?_nil, Option.none_or] at hhere
      have hrest := @search_none r a (some c) fun a₁ a₂ ha => by
        have h := hnone (c :: a₁) a₂ (by rw [ha, List.cons_append])
        rw [List.getLast?_cons] at h
        cases hlast : a₁.getLast? <;> rw [hlast] at h <;> exact h
      rw [search, hhere, hrest]
      rfl

theorem cut_none {r : Regex} (h : r.search prev t = none) : r.cut prev t = (t, []) := by
  rw [cut, h]

theorem cut_some {r : Regex} {skipped : List Char} (h : r.search prev t = some (skipped, m))
    (hlt : m.rest.length < t.length) :
    r.cut prev t = (skipped, (m, (r.cut ((skipped ++ m.taken).getLast?.or prev) m.rest).1)
      :: (r.cut ((skipped ++ m.taken).getLast?.or prev) m.rest).2) := by
  rw [cut, h]
  simp only [dif_pos hlt]

end Regex

import LighttpdFuzz.LineTools

/-!
# Substitutions and separators

`sed` scripts that work on joined lines. A substitution reads a text from
left to right and replaces what matches (`substitute`); how long a match
is depends on the rule.

Two facts carry the reasoning about joined lines:

- a rule none of whose matches holds the separator character works on
  each part for itself (`SplitsAt`, `Rule.splitsAt`), and so does a chain
  of such rules;
- a fixed text that overlaps with itself nowhere is found at each place
  where it stands (`Rewrite.literal_append`), so cutting a text there
  takes it apart into parts that do not depend on each other.
-/

namespace LineTools

/-! ## Substitution -/

/-- Replace the matches from left to right; `skip` characters still belong
to the match before. -/
def substitute (matchLength : Line → Option Nat) (result : Line) : Nat → Line → Line
  | _, [] => []
  | skip + 1, _ :: t => substitute matchLength result skip t
  | 0, c :: t =>
      match matchLength (c :: t) with
      | some n => result ++ substitute matchLength result (n - 1) t
      | none => c :: substitute matchLength result 0 t

section Substitute

variable {m : Line → Option Nat} {result : Line}

@[simp] theorem substitute_nil (skip : Nat) : substitute m result skip [] = [] := by
  cases skip <;> rfl

/-- The rest of a match is skipped. -/
theorem substitute_skip (b : Line) : ∀ a : Line,
    substitute m result a.length (a ++ b) = substitute m result 0 b
  | [] => rfl
  | _ :: a => substitute_skip b a

/-- A text in which no match begins stays, whatever follows. -/
theorem substitute_front {b : Line} : ∀ {a : Line},
    (∀ a₁ a₂, a = a₁ ++ a₂ → a₂ ≠ [] → m (a₂ ++ b) = none) →
      substitute m result 0 (a ++ b) = a ++ substitute m result 0 b
  | [], _ => rfl
  | c :: a, h => by
      have hhere : m (c :: (a ++ b)) = none := h [] (c :: a) rfl (List.cons_ne_nil c a)
      have hrest := @substitute_front b a fun a₁ a₂ ha hne =>
        h (c :: a₁) a₂ (by rw [ha, List.cons_append]) hne
      rw [List.cons_append, substitute, hhere, hrest, List.cons_append]

theorem substitute_self {a : Line} (h : ∀ a₁ a₂, a = a₁ ++ a₂ → a₂ ≠ [] → m a₂ = none) :
    substitute m result 0 a = a := by
  have hfront := @substitute_front m result [] a fun a₁ a₂ ha hne => by
    rw [List.append_nil, h a₁ a₂ ha hne]
  rwa [List.append_nil, substitute_nil, List.append_nil] at hfront

end Substitute

/-! ## Texts that are taken apart -/

/-- `f` works on the two sides of the character `c` for themselves. -/
structure SplitsAt (c : Char) (f : Line → Line) : Prop where
  nil : f [] = []
  sides : ∀ a b, f (a ++ c :: b) = f a ++ c :: f b

namespace SplitsAt

variable {c : Char} {f g : Line → Line}

theorem comp (hf : SplitsAt c f) (hg : SplitsAt c g) : SplitsAt c fun t => f (g t) where
  nil := by rw [hg.nil, hf.nil]
  sides a b := by rw [hg.sides, hf.sides]

theorem run (h : SplitsAt c f) (b : Line) : ∀ n : Nat,
    f (List.replicate n c ++ b) = List.replicate n c ++ f b
  | 0 => rfl
  | n + 1 => by
      have hside := h.sides [] (List.replicate n c ++ b)
      rw [List.nil_append, h.nil, List.nil_append, h.run b n] at hside
      rw [List.replicate_succ, List.cons_append, hside, List.cons_append]

theorem append (h : SplitsAt c f) (a b : Line) (n : Nat) :
    f (a ++ List.replicate (n + 1) c ++ b) = f a ++ List.replicate (n + 1) c ++ f b := by
  rw [List.append_assoc, List.replicate_succ, List.cons_append, h.sides, h.run, List.append_assoc,
    List.cons_append]

/-- On joined parts, `f` works on every part. -/
theorem intercalate (h : SplitsAt c f) (n : Nat) : ∀ parts : List Line,
    f ((List.replicate (n + 1) c).intercalate parts)
      = (List.replicate (n + 1) c).intercalate (parts.map f)
  | [] => h.nil
  | [part] => by rw [List.intercalate_singleton, List.map_singleton, List.intercalate_singleton]
  | part :: part' :: parts => by
      have ih := h.intercalate n (part' :: parts)
      rw [List.map_cons, List.map_cons, List.intercalate_cons_cons, List.intercalate_cons_cons,
        h.append, ih, List.map_cons]

end SplitsAt

theorem intercalate_append (sep : Line) {b : List Line} (hb : b ≠ []) : ∀ {a : List Line}, a ≠ [] →
    sep.intercalate (a ++ b) = sep.intercalate a ++ (sep ++ sep.intercalate b)
  | [part], _ => by
      rw [List.singleton_append, List.intercalate_cons_of_ne_nil hb, List.intercalate_singleton,
        List.append_assoc]
  | part :: part' :: parts, _ => by
      have ih := intercalate_append sep hb (List.cons_ne_nil part' parts)
      rw [List.cons_append] at ih ⊢
      rw [List.cons_append, List.intercalate_cons_cons, ih, List.intercalate_cons_cons]
      simp only [List.append_assoc]

/-! ## Rules -/

/-- `s/lead[cls]{atLeast,atMost}trail/result/g`, with alternatives for the
lead. What follows the run of characters does not look like one of them. -/
structure Rule where
  leads : List Line
  cls : Char → Bool
  atLeast : Nat
  atMost : Option Nat
  trail : Line
  result : Line
  leads_ne_nil : [] ∉ leads
  trail_stops : trail.head?.any cls = false

namespace Rule

/-- The length of the run of characters at the front of `t`. -/
def run (r : Rule) (t : Line) : Nat :=
  r.atMost.elim (t.takeWhile r.cls).length (min (t.takeWhile r.cls).length)

def matchAfter (r : Rule) (t lead : Line) : Option Nat :=
  if lead <+: t ∧ r.atLeast ≤ r.run (t.drop lead.length)
      ∧ r.trail <+: (t.drop lead.length).drop (r.run (t.drop lead.length)) then
    some (lead.length + r.run (t.drop lead.length) + r.trail.length)
  else none

/-- The length of the match at the front of `t`. -/
def matchLength (r : Rule) (t : Line) : Option Nat := r.leads.findSome? (r.matchAfter t)

def apply (r : Rule) (t : Line) : Line := substitute r.matchLength r.result 0 t

/-- The character `c` stands in no match. -/
def Avoids (r : Rule) (c : Char) : Prop :=
  (∀ lead ∈ r.leads, c ∉ lead) ∧ r.cls c = false ∧ c ∉ r.trail

instance (r : Rule) (c : Char) : Decidable (r.Avoids c) := by
  unfold Avoids
  infer_instance

theorem prefix_break {p a b : Line} {c : Char} (hc : c ∉ p) : p <+: a ++ c :: b ↔ p <+: a := by
  constructor
  · intro h
    rcases List.prefix_or_prefix_of_prefix h (List.prefix_append a (c :: b)) with h' | ⟨u, rfl⟩
    · exact h'
    · have hu : u <+: c :: b := (List.prefix_append_right_inj a).mp h
      cases u with
      | nil => rw [List.append_nil]
      | cons x u =>
          obtain rfl := (List.cons_prefix_cons.mp hu).1
          exact absurd (List.mem_append_right a List.mem_cons_self) hc
  · exact fun h => h.trans (List.prefix_append a (c :: b))

variable {r : Rule} {c : Char}

theorem run_le (r : Rule) (t : Line) : r.run t ≤ t.length := by
  have hle := (List.takeWhile_prefix (l := t) r.cls).length_le
  unfold run
  cases r.atMost with
  | none => exact hle
  | some n => exact (Nat.min_le_left _ _).trans hle

theorem run_break (hc : r.cls c = false) (a b : Line) : r.run (a ++ c :: b) = r.run a := by
  have htake : (a ++ c :: b).takeWhile r.cls = a.takeWhile r.cls := by
    rw [List.takeWhile_append, List.takeWhile_cons_of_neg (by rw [hc]; decide), List.append_nil]
    split
    · next hall => exact ((List.takeWhile_prefix r.cls).eq_of_length hall).symm
    · rfl
  rw [run, run, htake]

theorem matchAfter_break (h : r.Avoids c) {lead : Line} (hlead : lead ∈ r.leads) (a b : Line) :
    r.matchAfter (a ++ c :: b) lead = r.matchAfter a lead := by
  unfold matchAfter
  by_cases hstarts : lead <+: a
  · obtain ⟨a, rfl⟩ := hstarts
    have hle : r.run a ≤ a.length := r.run_le a
    rw [List.append_assoc, List.drop_left, List.drop_left, run_break h.2.1,
      List.drop_append_of_le_length hle]
    simp only [List.prefix_append, prefix_break h.2.2]
  · have hstarts' : ¬ lead <+: a ++ c :: b := mt (prefix_break (h.1 lead hlead)).mp hstarts
    simp only [hstarts, hstarts', false_and, if_false]

theorem le_of_matchAfter {t lead : Line} {n : Nat} (h : r.matchAfter t lead = some n) :
    n ≤ t.length := by
  unfold matchAfter at h
  split_ifs at h with hm
  obtain rfl := Option.some.inj h
  obtain ⟨⟨t, rfl⟩, -, htrail⟩ := hm
  rw [List.drop_left] at htrail ⊢
  have hlen := htrail.length_le
  have hle := r.run_le t
  rw [List.length_drop] at hlen
  rw [List.length_append]
  omega

theorem matchLength_break (h : r.Avoids c) (a b : Line) :
    r.matchLength (a ++ c :: b) = r.matchLength a := by
  unfold matchLength
  generalize hleads : r.leads = leads
  have hall : ∀ lead ∈ leads, lead ∈ r.leads := fun lead hlead => hleads ▸ hlead
  clear hleads
  induction leads with
  | nil => rfl
  | cons lead leads ih =>
      rw [List.findSome?_cons, List.findSome?_cons,
        matchAfter_break h (hall lead List.mem_cons_self),
        ih fun lead' hlead => hall lead' (List.mem_cons_of_mem _ hlead)]

theorem le_of_matchLength {t : Line} {n : Nat} (h : r.matchLength t = some n) : n ≤ t.length := by
  obtain ⟨lead, -, hlead⟩ := List.exists_of_findSome?_eq_some h
  exact le_of_matchAfter hlead

theorem matchLength_nil (r : Rule) : r.matchLength [] = none := by
  rw [matchLength, List.findSome?_eq_none_iff]
  intro lead hlead
  rw [matchAfter, if_neg]
  rintro ⟨hstarts, -⟩
  rw [List.prefix_nil.mp hstarts] at hlead
  exact r.leads_ne_nil hlead

theorem substitute_break (h : r.Avoids c) (b : Line) : ∀ (a : Line) (skip : Nat), skip ≤ a.length →
    substitute r.matchLength r.result skip (a ++ c :: b)
      = substitute r.matchLength r.result skip a ++ c :: substitute r.matchLength r.result 0 b
  | [], skip, hskip => by
      obtain rfl := Nat.le_zero.mp hskip
      have hhere := matchLength_break h [] b
      rw [matchLength_nil, List.nil_append] at hhere
      rw [substitute_nil, List.nil_append, List.nil_append]
      simp only [substitute, hhere]
  | x :: a, skip + 1, hskip => by
      rw [List.cons_append, substitute, substitute]
      exact substitute_break h b a skip (Nat.le_of_succ_le_succ hskip)
  | x :: a, 0, _ => by
      have hhere := matchLength_break h (x :: a) b
      rw [List.cons_append] at hhere
      rw [List.cons_append, substitute, substitute, hhere]
      cases hmatch : r.matchLength (x :: a) with
      | none =>
          dsimp only
          rw [substitute_break h b a 0 (Nat.zero_le _), List.cons_append]
      | some n =>
          have hle := le_of_matchLength hmatch
          dsimp only
          rw [substitute_break h b a (n - 1) (by rw [List.length_cons] at hle; omega),
            List.append_assoc]

/-- A rule whose matches do not hold `c` works on the parts between. -/
theorem splitsAt (h : r.Avoids c) : SplitsAt c r.apply where
  nil := rfl
  sides a b := substitute_break h b a 0 (Nat.zero_le _)

/-- Every match holds a character that is not of the alphabet. -/
def Foreign (r : Rule) (alphabet : Line) : Bool :=
  (r.leads.all fun lead => lead.any fun d => !alphabet.contains d)
    || (decide (0 < r.atLeast) && alphabet.all fun d => !r.cls d)

/-- A text of the alphabet stays. -/
theorem apply_of_foreign {alphabet t : Line} (h : r.Foreign alphabet = true)
    (ht : ∀ d ∈ t, d ∈ alphabet) : r.apply t = t := by
  refine substitute_self fun a₁ a₂ ha _ => ?_
  have hsub : ∀ d ∈ a₂, d ∈ alphabet := fun d hd => ht d (ha ▸ List.mem_append_right a₁ hd)
  rw [matchLength, List.findSome?_eq_none_iff]
  intro lead hlead
  rw [matchAfter, if_neg]
  rintro ⟨hstarts, hrun, -⟩
  rcases Bool.or_eq_true_iff.mp h with hleads | hcls
  · obtain ⟨d, hd, hforeign⟩ := List.any_eq_true.mp (List.all_eq_true.mp hleads lead hlead)
    have hmem := List.contains_iff_mem.mpr (hsub d (hstarts.subset hd))
    rw [hmem] at hforeign
    cases hforeign
  · obtain ⟨hpos, hnone⟩ := Bool.and_eq_true_iff.mp hcls
    have hempty : (a₂.drop lead.length).takeWhile r.cls = [] := by
      cases hrest : a₂.drop lead.length with
      | nil => rfl
      | cons d rest =>
          have hd : d ∈ a₂ := List.mem_of_mem_drop (hrest ▸ List.mem_cons_self)
          have hno := List.all_eq_true.mp hnone d (hsub d hd)
          rw [Bool.not_eq_true'] at hno
          rw [List.takeWhile_cons_of_neg (by rw [hno]; decide)]
    have hzero : r.run (a₂.drop lead.length) = 0 := by
      rw [run, hempty]
      cases r.atMost <;> simp
    have hpos := of_decide_eq_true hpos
    omega

end Rule

/-! ## Rewrites as rules -/

namespace Rewrite

/-- A rewrite is a rule with one lead that ends with the run. -/
def toRule (r : Rewrite) : Rule where
  leads := [r.lead]
  cls := r.cls
  atLeast := r.atLeast
  atMost := r.atMost
  trail := []
  result := r.result
  leads_ne_nil h := r.lead_ne_nil (List.mem_singleton.mp h).symm
  trail_stops := rfl

theorem matchLength_toRule (r : Rewrite) (t : Line) : r.toRule.matchLength t = r.matchLength t := by
  have hrun : r.toRule.run (t.drop r.lead.length)
      = r.atMost.elim ((t.drop r.lead.length).takeWhile r.cls).length
          (min ((t.drop r.lead.length).takeWhile r.cls).length) := rfl
  have hmatch : r.toRule.matchLength t = r.toRule.matchAfter t r.lead := by
    rw [Rule.matchLength, toRule, List.findSome?_cons, List.findSome?_nil]
    cases Rule.matchAfter _ t r.lead <;> rfl
  rw [hmatch, Rule.matchAfter, hrun, matchLength]
  simp only [toRule, List.nil_prefix, and_true, List.length_nil, Nat.add_zero]
  rw [ite_and]
  cases r.atMost <;> rfl

theorem applyFrom_eq (r : Rewrite) : ∀ (t : Line) (skip : Nat),
    r.applyFrom skip t = substitute r.matchLength r.result skip t
  | [], 0 => rfl
  | [], _ + 1 => rfl
  | _ :: t, skip + 1 => applyFrom_eq r t skip
  | c :: t, 0 => by
      rw [applyFrom, substitute, applyFrom_eq r t 0]
      cases r.matchLength (c :: t) with
      | none => rfl
      | some n =>
          dsimp only
          rw [applyFrom_eq r t (n - 1)]

theorem apply_eq (r : Rewrite) (t : Line) : r.apply t = substitute r.matchLength r.result 0 t :=
  r.applyFrom_eq t 0

theorem apply_toRule (r : Rewrite) : r.toRule.apply = r.apply := by
  funext t
  rw [apply_eq, Rule.apply, funext (matchLength_toRule r)]
  rfl

/-- A rewrite whose matches do not hold `c` works on the parts between. -/
theorem splitsAt {r : Rewrite} {c : Char} (h : r.toRule.Avoids c) : SplitsAt c r.apply := by
  rw [← apply_toRule]
  exact Rule.splitsAt h

theorem apply_of_foreign {r : Rewrite} {alphabet t : Line} (h : r.toRule.Foreign alphabet = true)
    (ht : ∀ d ∈ t, d ∈ alphabet) : r.apply t = t := by
  rw [← apply_toRule]
  exact Rule.apply_of_foreign h ht

/-- Where no lead can begin, nothing matches, whatever follows. -/
theorem apply_append {r : Rewrite} {a : Line} (h : ∀ d ∈ a, ¬ [d] <+: r.lead) (b : Line) :
    r.apply (a ++ b) = a ++ r.apply b := by
  rw [apply_eq, apply_eq]
  refine substitute_front fun a₁ a₂ ha hne => ?_
  obtain ⟨d, a₂, rfl⟩ := List.exists_cons_of_ne_nil hne
  have hd := h d (ha ▸ List.mem_append_right a₁ List.mem_cons_self)
  rw [matchLength, if_neg]
  intro hstarts
  obtain ⟨c, lead, hlead⟩ := List.exists_cons_of_ne_nil r.lead_ne_nil
  rw [hlead, List.cons_append] at hstarts
  rw [hlead, (List.cons_prefix_cons.mp hstarts).1] at hd
  exact hd (List.prefix_append [d] lead)

/-- A text that is not empty does not vanish. -/
theorem apply_ne_nil {r : Rewrite} (hresult : r.result ≠ []) {t : Line} (ht : t ≠ []) :
    r.apply t ≠ [] := by
  obtain ⟨c, t, rfl⟩ := List.exists_cons_of_ne_nil ht
  rw [apply_eq, substitute]
  cases r.matchLength (c :: t) with
  | none => exact List.cons_ne_nil _ _
  | some n => exact List.append_ne_nil_of_left_ne_nil hresult _

/-! ## Fixed texts -/

/-- `s/lead/result/g` -/
def literal (lead result : Line) (h : lead ≠ []) : Rewrite where
  lead := lead
  cls _ := false
  atLeast := 0
  atMost := some 0
  result := result
  lead_ne_nil := h

variable {lead result : Line} {h : lead ≠ []}

theorem matchLength_literal (t : Line) :
    (literal lead result h).matchLength t = if lead <+: t then some lead.length else none := by
  have hrun : ((t.drop lead.length).takeWhile fun _ => false).length = 0 := by
    cases t.drop lead.length <;> rfl
  simp only [matchLength, literal, hrun, Nat.zero_min, Nat.le_refl, if_true, Nat.add_zero]

/-- No front of the text is an end of it. -/
def Unbordered (p : Line) : Prop := ∀ u ∈ p.tails, u <+: p → u = [] ∨ u = p

instance (p : Line) : Decidable (Unbordered p) := by
  unfold Unbordered
  infer_instance

theorem Unbordered.starts {p s b : Line} (h : Unbordered p) (hs : s ≠ []) :
    p <+: s ++ (p ++ b) ↔ p <+: s := by
  constructor
  · intro hp
    rcases List.prefix_or_prefix_of_prefix hp (List.prefix_append s (p ++ b)) with h' | ⟨u, hu⟩
    · exact h'
    · have hup : u <+: p ++ b := by
        rw [← hu, List.prefix_append_right_inj] at hp
        rwa [hu] at hp
      have hlen := congrArg List.length hu
      rw [List.length_append] at hlen
      have hfront := List.prefix_of_prefix_length_le hup (List.prefix_append p b) (by omega)
      rcases h u ((List.mem_tails u p).mpr ⟨s, hu⟩) hfront with rfl | rfl
      · rw [← hu, List.append_nil]
      · exact absurd (List.eq_nil_of_length_eq_zero (by omega)) hs
  · exact fun hp => hp.trans (List.prefix_append s (p ++ b))

theorem substitute_literal (hlead : Unbordered lead) (b : Line) :
    ∀ (a : Line) (skip : Nat), skip ≤ a.length →
      substitute (literal lead result h).matchLength result skip (a ++ (lead ++ b))
        = substitute (literal lead result h).matchLength result skip a
          ++ (result ++ substitute (literal lead result h).matchLength result 0 b)
  | [], skip, hskip => by
      obtain rfl := Nat.le_zero.mp hskip
      obtain ⟨c, p, rfl⟩ := List.exists_cons_of_ne_nil h
      have hhere : (literal (c :: p) result h).matchLength (c :: (p ++ b))
          = some (p.length + 1) := by
        rw [matchLength_literal, ← List.cons_append, if_pos (List.prefix_append (c :: p) b),
          List.length_cons]
      rw [List.nil_append, substitute_nil, List.nil_append, List.cons_append, substitute, hhere]
      dsimp only
      rw [Nat.add_sub_cancel, substitute_skip]
  | x :: a, skip + 1, hskip => by
      rw [List.cons_append, substitute, substitute]
      exact substitute_literal hlead b a skip (Nat.le_of_succ_le_succ hskip)
  | x :: a, 0, _ => by
      have hhere : (literal lead result h).matchLength (x :: (a ++ (lead ++ b)))
          = (literal lead result h).matchLength (x :: a) := by
        rw [matchLength_literal, matchLength_literal, ← List.cons_append]
        simp only [hlead.starts (List.cons_ne_nil x a)]
      rw [List.cons_append, substitute, substitute, hhere, matchLength_literal]
      by_cases hmatch : lead <+: x :: a
      · have hle := hmatch.length_le
        rw [if_pos hmatch]
        dsimp only
        rw [substitute_literal hlead b a (lead.length - 1) (by rw [List.length_cons] at hle; omega),
          List.append_assoc]
      · rw [if_neg hmatch]
        dsimp only
        rw [substitute_literal hlead b a 0 (Nat.zero_le _), List.cons_append]

/-- A text without borders is found where it stands. -/
theorem literal_append (hlead : Unbordered lead) (a b : Line) :
    (literal lead result h).apply (a ++ (lead ++ b))
      = (literal lead result h).apply a ++ (result ++ (literal lead result h).apply b) := by
  rw [apply_eq, apply_eq, apply_eq]
  exact substitute_literal hlead b a 0 (Nat.zero_le _)

end Rewrite

end LineTools

import LighttpdFuzz.PyBytes
import Mathlib.Data.List.DropRight

/-!
# Taking byte strings apart

Python's `find`, `split`, `strip` and `int` on `bytes`. A separator is
found at its first occurrence, so a string that was put together with a
separator which its parts cannot contain is split into these parts
(`split_joined`).
-/

/-! ## Stripping -/

/-- `l` without the elements of `p` at its two ends. -/
def stripBy {α : Type} (p : α → Bool) (l : List α) : List α := (l.dropWhile p).rdropWhile p

theorem dropWhile_all {α : Type} {p : α → Bool} {a l : List α} (h : ∀ x ∈ a, p x = true) :
    (a ++ l).dropWhile p = l.dropWhile p := by
  rw [List.dropWhile_append, List.dropWhile_eq_nil_iff.mpr h]
  rfl

theorem rdropWhile_all {α : Type} {p : α → Bool} {l b : List α} (h : ∀ x ∈ b, p x = true) :
    (l ++ b).rdropWhile p = l.rdropWhile p := by
  rw [List.rdropWhile, List.reverse_append,
    dropWhile_all fun x hx => h x (List.mem_reverse.mp hx), List.rdropWhile]

theorem stripBy_pads {α : Type} {p : α → Bool} {a l b : List α} (ha : ∀ x ∈ a, p x = true)
    (hb : ∀ x ∈ b, p x = true) : stripBy p (a ++ l ++ b) = stripBy p l := by
  rw [stripBy, List.append_assoc, dropWhile_all ha, List.dropWhile_append]
  by_cases hl : (l.dropWhile p).isEmpty = true
  · rw [if_pos hl, List.dropWhile_eq_nil_iff.mpr hb, stripBy, List.isEmpty_iff.mp hl]
  · rw [if_neg hl, rdropWhile_all hb, stripBy]

/-- What stripping takes away is in the class. -/
theorem stripBy_split {α : Type} (p : α → Bool) (l : List α) :
    ∃ a b, l = a ++ stripBy p l ++ b ∧ (∀ x ∈ a, p x = true) ∧ ∀ x ∈ b, p x = true := by
  refine ⟨l.takeWhile p, (l.dropWhile p).rtakeWhile p, ?_, fun x hx => List.mem_takeWhile_imp hx,
    fun x hx => List.mem_rtakeWhile_imp hx⟩
  rw [List.append_assoc, stripBy, List.rdropWhile_append_rtakeWhile,
    List.takeWhile_append_dropWhile]

theorem stripBy_none {α : Type} {p : α → Bool} {l : List α} (h : ∀ x ∈ l, p x = false) :
    stripBy p l = l := by
  have hfalse : ∀ x ∈ l, ¬ p x = true := fun x hx hp => by
    rw [h x hx] at hp
    cases hp
  obtain ⟨a, b, hsplit, ha, hb⟩ := stripBy_split p l
  have hanil : a = [] := List.eq_nil_iff_forall_not_mem.mpr fun x hx =>
    hfalse x (by rw [hsplit]; simp [hx]) (ha x hx)
  have hbnil : b = [] := List.eq_nil_iff_forall_not_mem.mpr fun x hx =>
    hfalse x (by rw [hsplit]; simp [hx]) (hb x hx)
  rw [hanil, hbnil, List.nil_append, List.append_nil] at hsplit
  exact hsplit.symm

namespace Bytes

/-- `bytes.isspace` on one byte. -/
def isSpace (b : UInt8) : Bool := b == 0x20 || (0x09 ≤ b && b ≤ 0x0d)

/-- `data.strip()` -/
def strip (data : Bytes) : Bytes := stripBy isSpace data

/-! ## Finding and splitting -/

/-- `data.find(sep)`; `none` is `-1`. -/
def find (sep : Bytes) : Bytes → Option Nat
  | [] => if sep = [] then some 0 else none
  | b :: rest => if sep <+: b :: rest then some 0 else (find sep rest).map (· + 1)

/-- `data.split(sep, 1)`, when `sep` occurs. -/
def splitFirst (sep data : Bytes) : Option (Bytes × Bytes) :=
  (find sep data).map fun i => (data.take i, data.drop (i + sep.length))

/-- `data.split(sep, count)` -/
def splitMax (sep : Bytes) : Nat → Bytes → List Bytes
  | 0, data => [data]
  | count + 1, data =>
      match splitFirst sep data with
      | none => [data]
      | some (part, rest) => part :: splitMax sep count rest

/-- `data.split(sep)`; a byte string has no more separators than bytes. -/
def split (sep data : Bytes) : List Bytes := splitMax sep data.length data

theorem find_none {c : UInt8} {sep : Bytes} : ∀ {data : Bytes}, c ∉ data →
    find (c :: sep) data = none
  | [], _ => rfl
  | b :: data, h => by
      obtain ⟨hb, hdata⟩ := not_or.mp (List.mem_cons.not.mp h)
      have hne : ¬ c :: sep <+: b :: data := by
        rw [List.cons_prefix_cons]
        exact fun hp => hb hp.1
      rw [find, if_neg hne, find_none hdata]
      rfl

/-- A part that cannot contain the separator is passed over. -/
theorem find_skip {c : UInt8} {sep : Bytes} : ∀ {part : Bytes}, c ∉ part → ∀ data : Bytes,
    find (c :: sep) (part ++ data) = (find (c :: sep) data).map (· + part.length)
  | [], _, data => by
      rw [List.nil_append]
      cases find (c :: sep) data <;> rfl
  | b :: part, h, data => by
      obtain ⟨hb, hpart⟩ := not_or.mp (List.mem_cons.not.mp h)
      have hne : ¬ c :: sep <+: b :: (part ++ data) := by
        rw [List.cons_prefix_cons]
        exact fun hp => hb hp.1
      rw [List.cons_append, find, if_neg hne, find_skip hpart, Option.map_map]
      rfl

theorem find_append {c : UInt8} {sep part : Bytes} (h : c ∉ part) (rest : Bytes) :
    find (c :: sep) (part ++ (c :: sep ++ rest)) = some part.length := by
  rw [find_skip h, List.cons_append, find, ← List.cons_append,
    if_pos (List.prefix_append (c :: sep) rest), Option.map_some, Nat.zero_add]

theorem splitFirst_append {c : UInt8} {sep part : Bytes} (h : c ∉ part) (rest : Bytes) :
    splitFirst (c :: sep) (part ++ (c :: sep ++ rest)) = some (part, rest) := by
  rw [splitFirst, find_append h, Option.map_some, List.take_left, ← List.append_assoc,
    List.drop_left' (by rw [List.length_append])]

theorem splitFirst_none {c : UInt8} {sep data : Bytes} (h : c ∉ data) :
    splitFirst (c :: sep) data = none := by
  rw [splitFirst, find_none h]
  rfl

theorem splitMax_append {c : UInt8} {sep part : Bytes} (h : c ∉ part) (count : Nat)
    (rest : Bytes) :
    splitMax (c :: sep) (count + 1) (part ++ (c :: sep ++ rest))
      = part :: splitMax (c :: sep) count rest := by
  rw [splitMax, splitFirst_append h]

theorem splitMax_last {c : UInt8} {sep part : Bytes} (h : c ∉ part) :
    ∀ count : Nat, splitMax (c :: sep) count part = [part]
  | 0 => rfl
  | count + 1 => by rw [splitMax, splitFirst_none h]

/-- Parts that cannot contain the separator, each followed by it. -/
theorem splitMax_joined {c : UInt8} {sep last : Bytes} (hlast : c ∉ last) :
    ∀ {parts : List Bytes}, (∀ part ∈ parts, c ∉ part) → ∀ {count : Nat},
    parts.length ≤ count →
    splitMax (c :: sep) count (parts.flatMap (· ++ (c :: sep)) ++ last) = parts ++ [last]
  | [], _, count, _ => splitMax_last hlast count
  | part :: parts, h, 0, hcount => by cases hcount
  | part :: parts, h, count + 1, hcount => by
      obtain ⟨hpart, hparts⟩ := List.forall_mem_cons.mp h
      rw [List.flatMap_cons, List.append_assoc, List.append_assoc, splitMax_append hpart,
        splitMax_joined hlast hparts (Nat.le_of_succ_le_succ hcount), List.cons_append]

theorem length_le_flatMap {c : UInt8} {sep : Bytes} : ∀ parts : List Bytes,
    parts.length ≤ (parts.flatMap (· ++ (c :: sep))).length
  | [] => Nat.le_refl 0
  | part :: parts => by
      have ih := @length_le_flatMap c sep parts
      rw [List.flatMap_cons, List.length_append, List.length_append, List.length_cons,
        List.length_cons]
      omega

theorem split_joined {c : UInt8} {sep last : Bytes} (hlast : c ∉ last) {parts : List Bytes}
    (h : ∀ part ∈ parts, c ∉ part) :
    split (c :: sep) (parts.flatMap (· ++ (c :: sep)) ++ last) = parts ++ [last] := by
  refine splitMax_joined hlast h ?_
  rw [List.length_append]
  exact Nat.le_trans (length_le_flatMap parts) (Nat.le_add_right _ _)

theorem find_eq_none_iff {sep : Bytes} : ∀ {data : Bytes},
    find sep data = none ↔ ¬ sep <:+: data
  | [] => by
      rw [find, List.infix_nil]
      split <;> simp_all
  | b :: data => by
      rw [find, List.infix_cons_iff]
      by_cases hp : sep <+: b :: data
      · simp [hp]
      · rw [if_neg hp, Option.map_eq_none_iff, find_eq_none_iff]
        simp [hp]

theorem find_short {sep : Bytes} : ∀ {data : Bytes}, data.length < sep.length →
    find sep data = none
  | [], h => by
      rw [find, if_neg]
      rintro rfl
      cases h
  | b :: data, h => by
      have hne : ¬ sep <+: b :: data := fun hp => Nat.not_le.mpr h hp.length_le
      rw [find, if_neg hne, find_short (Nat.lt_of_succ_lt h)]
      rfl

/-- In the front of a string the separator is found once all of it is
there. -/
theorem find_take {sep : Bytes} (hsep : sep ≠ []) : ∀ {data : Bytes} {i : Nat},
    find sep data = some i → ∀ n : Nat,
    find sep (data.take n) = if i + sep.length ≤ n then some i else none
  | [], i, h, n => by
      rw [find, if_neg hsep] at h
      cases h
  | b :: data, i, h, 0 => by
      have hpos := List.length_pos_iff.mpr hsep
      rw [List.take_zero, find, if_neg hsep, if_neg (by omega)]
  | b :: data, i, h, n + 1 => by
      have hpos := List.length_pos_iff.mpr hsep
      rw [List.take_succ_cons, find]
      unfold find at h
      by_cases hp : sep <+: b :: data
      · rw [if_pos hp] at h
        cases h
        by_cases hn : sep.length ≤ n + 1
        · have htake : sep <+: b :: data.take n := by
            rw [← List.take_succ_cons, List.prefix_take_iff]
            exact ⟨hp, hn⟩
          rw [if_pos htake, if_pos (by omega)]
        · have hlen : (data.take n).length < sep.length - 1 := by
            rw [List.length_take]
            omega
          have hno : ¬ sep <+: b :: data.take n := fun hp => by
            have hle := hp.length_le
            rw [List.length_cons] at hle
            omega
          rw [if_neg hno, find_short (by omega), if_neg (by omega)]
          rfl
      · rw [if_neg hp] at h
        have hno : ¬ sep <+: b :: data.take n := by
          rw [← List.take_succ_cons]
          exact fun hpre => hp (hpre.trans (List.take_prefix _ _))
        rw [if_neg hno]
        cases hfind : find sep data with
        | none =>
            rw [hfind] at h
            cases h
        | some j =>
            rw [hfind] at h
            obtain rfl : j + 1 = i := Option.some.inj h
            rw [find_take hsep hfind n]
            by_cases hn : j + sep.length ≤ n
            · rw [if_pos hn, if_pos (by omega)]
              rfl
            · rw [if_neg hn, if_neg (by omega)]
              rfl

/-- What is found in the front of a string is found in the string. -/
theorem find_of_take {sep data : Bytes} {n i : Nat} (hsep : sep ≠ [])
    (h : find sep (data.take n) = some i) : find sep data = some i ∧ i + sep.length ≤ n := by
  cases hfind : find sep data with
  | none =>
      have hno : find sep (data.take n) = none :=
        find_eq_none_iff.mpr fun hp => find_eq_none_iff.mp hfind
          (hp.trans (List.take_prefix n data).isInfix)
      rw [h] at hno
      cases hno
  | some j =>
      rw [find_take hsep hfind] at h
      split at h
      · next hle =>
          cases h
          exact ⟨rfl, hle⟩
      · cases h

/-! ## Numbers -/

def isDigit (b : UInt8) : Bool := 0x30 ≤ b && b ≤ 0x39

/-- Digits, with single underscores between them. -/
def decimal (value : Nat) (afterDigit : Bool) : Bytes → Option Nat
  | [] => if afterDigit then some value else none
  | b :: rest =>
      if isDigit b then decimal (value * 10 + (b.toNat - 0x30)) true rest
      else if b = 0x5f ∧ afterDigit then decimal value false rest
      else none

/-- `int(data)`; `none` is a `ValueError`. -/
def toInt (data : Bytes) : Option Int :=
  let data := strip data
  if 4300 < data.countP isDigit then none
  else
    match data with
    | 0x2b :: digits => (decimal 0 false digits).map Int.ofNat
    | 0x2d :: digits => (decimal 0 false digits).map fun n => -Int.ofNat n
    | digits => (decimal 0 false digits).map Int.ofNat

/-- `str(n).encode()` -/
def ofNat (n : Nat) : Bytes := (Nat.toDigits 10 n).map fun c => UInt8.ofNat c.toNat

theorem digit_byte {c : Char} (h : c.isDigit = true) :
    (UInt8.ofNat c.toNat).toNat = c.toNat ∧ isDigit (UInt8.ofNat c.toNat) = true := by
  have hc : 0x30 ≤ c.toNat ∧ c.toNat ≤ 0x39 := by
    simpa [Char.isDigit, UInt32.le_iff_toNat_le] using h
  have hback : (UInt8.ofNat c.toNat).toNat = c.toNat := by
    rw [UInt8.toNat_ofNat']
    omega
  refine ⟨hback, ?_⟩
  rw [isDigit, Bool.and_eq_true, decide_eq_true_eq, decide_eq_true_eq, UInt8.le_iff_toNat_le,
    UInt8.le_iff_toNat_le, hback]
  exact hc

theorem isDigit_ofNat {n : Nat} {b : UInt8} (h : b ∈ ofNat n) : isDigit b = true := by
  obtain ⟨c, hc, rfl⟩ := List.mem_map.mp h
  exact (digit_byte (Nat.isDigit_of_mem_toDigits (by decide) (by decide) hc)).2

theorem length_ofNat_le {n k : Nat} (hk : 0 < k) (h : n < 10 ^ k) : (ofNat n).length ≤ k := by
  rw [ofNat, List.length_map]
  exact (Nat.length_toDigits_le_iff (by decide) hk).mpr h

theorem ofNat_ne_nil (n : Nat) : ofNat n ≠ [] := by
  rw [← List.length_pos_iff, ofNat, List.length_map]
  exact Nat.length_toDigits_pos

theorem decimal_digits : ∀ {chars : List Char} (value : Nat) (afterDigit : Bool),
    (∀ c ∈ chars, c.isDigit = true) → (chars = [] → afterDigit = true) →
    decimal value afterDigit (chars.map fun c => UInt8.ofNat c.toNat)
      = some (Nat.ofDigitChars 10 chars value)
  | [], value, afterDigit, _, hnil => by
      rw [List.map_nil, decimal, if_pos (hnil rfl), Nat.ofDigitChars_nil]
  | c :: chars, value, afterDigit, hdigits, _ => by
      obtain ⟨hc, hchars⟩ := List.forall_mem_cons.mp hdigits
      obtain ⟨hback, hdigit⟩ := digit_byte hc
      rw [List.map_cons, decimal, if_pos hdigit, decimal_digits _ _ hchars fun _ => rfl, hback,
        Nat.ofDigitChars_cons, Nat.mul_comm]
      rfl

theorem isSpace_of_isDigit {b : UInt8} (h : isDigit b = true) : isSpace b = false := by
  rw [isDigit, Bool.and_eq_true, decide_eq_true_eq, UInt8.le_iff_toNat_le] at h
  have hle : 0x30 ≤ b.toNat := h.1
  have hne : b ≠ 0x20 := by
    rintro rfl
    exact absurd hle (by decide)
  have hgt : ¬ b ≤ 0x0d := by
    rw [UInt8.le_iff_toNat_le]
    exact Nat.not_le.mpr (Nat.lt_of_lt_of_le (by decide) hle)
  rw [isSpace, beq_eq_false_iff_ne.mpr hne, decide_eq_false hgt, Bool.and_false, Bool.or_false]

/-- `int(str(n).encode())` is `n`, up to the limit on digits. -/
theorem toInt_ofNat {n : Nat} (h : (ofNat n).length ≤ 4300) : toInt (ofNat n) = some (n : Int) := by
  have hstrip : strip (ofNat n) = ofNat n :=
    stripBy_none fun b hb => isSpace_of_isDigit (isDigit_ofNat hb)
  have hchars : ∀ c ∈ Nat.toDigits 10 n, c.isDigit = true := fun c hc =>
    Nat.isDigit_of_mem_toDigits (by decide) (by decide) hc
  have hvalue : decimal 0 false (ofNat n) = some n := by
    have hne : Nat.toDigits 10 n ≠ [] := List.length_pos_iff.mp Nat.length_toDigits_pos
    rw [ofNat, decimal_digits 0 false hchars fun hnil => absurd hnil hne,
      Nat.ofDigitChars_ten_toDigits]
  have hcount : ¬ 4300 < (ofNat n).countP isDigit := fun hlt =>
    Nat.not_le.mpr hlt (Nat.le_trans List.countP_le_length h)
  rw [toInt, hstrip]
  simp only [if_neg hcount]
  split
  · next hsign => cases isDigit_ofNat (n := n) (b := 0x2b) (hsign ▸ List.mem_cons_self)
  · next hsign => cases isDigit_ofNat (n := n) (b := 0x2d) (hsign ▸ List.mem_cons_self)
  · rw [hvalue]
    rfl

theorem strip_strip (data : Bytes) : strip (strip data) = strip data := by
  obtain ⟨a, b, hsplit, ha, hb⟩ := stripBy_split isSpace data
  conv_rhs => rw [strip, hsplit]
  rw [stripBy_pads ha hb]
  rfl

@[simp] theorem toInt_strip (data : Bytes) : toInt (strip data) = toInt data := by
  rw [toInt, toInt, strip_strip]

end Bytes

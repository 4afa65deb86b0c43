import Mathlib.Algebra.GroupWithZero.Nat
import Mathlib.Data.List.DropRight

/-!
# Python strings

The operations on `str` that the modelled programs use: stripping and
splitting at line boundaries with Python's character classes, padding to
a width, and numbers in decimal.
-/

/-- A `str`: its code points. -/
abbrev Text := List Char

namespace Text

/-- `str.isspace` on one character. -/
def isSpace (c : Char) : Bool :=
  let n := c.toNat
  (0x09 ≤ n && n ≤ 0x0d) || (0x1c ≤ n && n ≤ 0x20) || n == 0x85 || n == 0xa0 || n == 0x1680
    || (0x2000 ≤ n && n ≤ 0x200a) || n == 0x2028 || n == 0x2029 || n == 0x202f
    || n == 0x205f || n == 0x3000

/-- `str.strip()`. -/
def strip (t : Text) : Text :=
  (t.dropWhile isSpace).rdropWhile isSpace

/-- Whether `str.splitlines` ends a line at the character. -/
def isLineBoundary (c : Char) : Bool :=
  let n := c.toNat
  (0x0a ≤ n && n ≤ 0x0d) || (0x1c ≤ n && n ≤ 0x1e) || n == 0x85 || n == 0x2028 || n == 0x2029

/-- The lines of `t`, the first of which has begun with `line`. -/
def splitlinesFrom (line : Text) : Text → List Text
  | [] => if line.isEmpty then [] else [line]
  | '\r' :: '\n' :: t => line :: splitlinesFrom [] t
  | c :: t =>
      if isLineBoundary c then line :: splitlinesFrom [] t else splitlinesFrom (line ++ [c]) t

/-- `str.splitlines()`. -/
def splitlines (t : Text) : List Text := splitlinesFrom [] t

/-- The words of `t`, the first of which has begun with `word`. -/
def splitFrom (word : Text) : Text → List Text
  | [] => if word.isEmpty then [] else [word]
  | c :: t =>
      if isSpace c then
        if word.isEmpty then splitFrom [] t else word :: splitFrom [] t
      else splitFrom (word ++ [c]) t

/-- `str.split()`. -/
def split (t : Text) : List Text := splitFrom [] t

/-- `f"{t:width}"` for a string. -/
def padRight (width : Nat) (t : Text) : Text :=
  t ++ List.replicate (width - t.length) ' '

/-- `f"{t:>width}"`. -/
def padLeft (width : Nat) (t : Text) : Text :=
  List.replicate (width - t.length) ' ' ++ t

/-- `str(n)` for a natural number. -/
def ofNat (n : Nat) : Text := Nat.toDigits 10 n

/-- `str(n)` for an integer. -/
def ofInt (n : Int) : Text := if n < 0 then '-' :: ofNat n.natAbs else ofNat n.natAbs

theorem ofNat_injective : Function.Injective ofNat := fun m n h => by
  have hback := congrArg (fun t => Nat.ofDigitChars 10 t 0) h
  rwa [ofNat, ofNat, Nat.ofDigitChars_ten_toDigits, Nat.ofDigitChars_ten_toDigits] at hback

theorem isDigit_ofNat {n : Nat} {c : Char} (h : c ∈ ofNat n) : c.isDigit = true :=
  Nat.isDigit_of_mem_toDigits (by decide) (by decide) h

theorem digitChar_value {c : Char} (h : c.isDigit = true) :
    c.toNat - '0'.toNat < 10 ∧ Nat.digitChar (c.toNat - '0'.toNat) = c := by
  have hnat : ∀ n < 10, (Nat.digitChar n).toNat = 48 + n := by decide
  obtain ⟨hlow, hhigh⟩ : 48 ≤ c.toNat ∧ c.toNat ≤ 57 := Char.isDigit_iff_toNat.mp h
  have hlt : c.toNat - 48 < 10 := by omega
  refine ⟨hlt, Char.toNat_inj.mp ?_⟩
  exact (hnat _ hlt).trans (by omega)

theorem ofDigitChars_lt {t : Text} (hdigits : ∀ c ∈ t, c.isDigit = true) :
    Nat.ofDigitChars 10 t 0 < 10 ^ t.length := by
  induction t using List.reverseRecOn with
  | nil => simp
  | append_singleton t c ih =>
      obtain ⟨ht, hc⟩ := List.forall_mem_append.mp hdigits
      obtain ⟨hvalue, -⟩ := digitChar_value (hc c (List.mem_singleton_self c))
      have hlt := ih ht
      rw [Nat.ofDigitChars_append, Nat.ofDigitChars_cons, Nat.ofDigitChars_nil,
        List.length_append, List.length_singleton, Nat.pow_succ]
      omega

/-- Numerals of one length are told apart by their values. -/
theorem ofDigitChars_injective : ∀ {t u : Text}, t.length = u.length →
    (∀ c ∈ t, c.isDigit = true) → (∀ c ∈ u, c.isDigit = true) →
    Nat.ofDigitChars 10 t 0 = Nat.ofDigitChars 10 u 0 → t = u := by
  intro t
  induction t using List.reverseRecOn with
  | nil =>
      intro u hlength _ _ _
      exact (List.eq_nil_of_length_eq_zero hlength.symm).symm
  | append_singleton t c ih =>
      intro u hlength ht hu heq
      rcases List.eq_nil_or_concat u with rfl | ⟨u, d, rfl⟩
      · simp at hlength
      · rw [List.concat_eq_append] at *
        obtain ⟨ht, hc⟩ := List.forall_mem_append.mp ht
        obtain ⟨hinit, hd⟩ := List.forall_mem_append.mp hu
        obtain ⟨hcvalue, hcchar⟩ := digitChar_value (hc c (List.mem_singleton_self c))
        obtain ⟨hdvalue, hdchar⟩ := digitChar_value (hd d (List.mem_singleton_self d))
        rw [Nat.ofDigitChars_append, Nat.ofDigitChars_cons, Nat.ofDigitChars_nil,
          Nat.ofDigitChars_append, Nat.ofDigitChars_cons, Nat.ofDigitChars_nil] at heq
        have hlast : c = d := by
          rw [← hcchar, ← hdchar]
          congr 1
          omega
        subst hlast
        rw [List.length_append, List.length_append, Nat.add_right_cancel_iff] at hlength
        rw [ih hlength ht hinit (by omega)]

/-- Digits without a leading zero are the numeral of their value. By
induction from the end: the last digit goes to the remainder. -/
theorem ofNat_ofDigitChars {t : Text} (hne : t ≠ []) (hzero : t.head? ≠ some '0')
    (hdigits : ∀ c ∈ t, c.isDigit = true) : ofNat (Nat.ofDigitChars 10 t 0) = t := by
  induction t using List.reverseRecOn with
  | nil => exact absurd rfl hne
  | append_singleton init c ih =>
      have hc : c.isDigit = true := hdigits c (List.mem_append_right _ (List.mem_singleton_self c))
      obtain ⟨hvalue, hchar⟩ := digitChar_value hc
      rw [ofNat, Nat.ofDigitChars_append, Nat.ofDigitChars_cons, Nat.ofDigitChars_nil]
      rcases eq_or_ne init [] with rfl | hinit
      · rw [Nat.ofDigitChars_nil, Nat.mul_zero, Nat.zero_add, Nat.toDigits_of_lt_base hvalue, hchar,
          List.nil_append]
      · have hhead : init.head? ≠ some '0' := by
          rwa [List.head?_append_of_ne_nil _ hinit] at hzero
        have hback := ih hinit hhead fun c hc => hdigits c (List.mem_append_left _ hc)
        have hpos : 0 < Nat.ofDigitChars 10 init 0 := by
          refine Nat.pos_of_ne_zero fun hvalue => hhead ?_
          rw [← hback, hvalue]
          rfl
        rw [← Nat.toDigits_append_toDigits (by decide) hpos hvalue,
          Nat.toDigits_of_lt_base hvalue, hchar]
        exact congrArg (· ++ [c]) hback

theorem head?_ofNat {n : Nat} (h : 0 < n) : (ofNat n).head? ≠ some '0' := by
  induction n using Nat.strongRecOn with
  | ind n ih =>
      rw [ofNat, Nat.toDigits_eq_if (by decide)]
      split
      · intro hzero
        exact h.ne' (Nat.digitChar_eq_zero.mp (Option.some.inj hzero))
      · rw [List.head?_append_of_ne_nil _ Nat.toDigits_ne_nil]
        exact ih (n / 10) (by omega) (by omega)

/-- What stands before the first separator is told apart. -/
theorem append_sep_inj {sep : Char} : ∀ {a a' r r' : Text}, sep ∉ a → sep ∉ a' →
    a ++ sep :: r = a' ++ sep :: r' → a = a' ∧ r = r'
  | [], [], r, r', _, _, h => ⟨rfl, (List.cons.inj h).2⟩
  | [], x :: a', r, r', _, ha', h =>
      absurd ((List.cons.inj h).1 ▸ List.mem_cons_self) ha'
  | x :: a, [], r, r', ha, _, h =>
      absurd ((List.cons.inj h).1 ▸ List.mem_cons_self) ha
  | x :: a, x' :: a', r, r', ha, ha', h => by
      obtain ⟨rfl, htail⟩ := List.cons.inj h
      obtain ⟨rfl, rfl⟩ := append_sep_inj (fun hmem => ha (List.mem_cons_of_mem _ hmem))
        (fun hmem => ha' (List.mem_cons_of_mem _ hmem)) htail
      exact ⟨rfl, rfl⟩

/-- Digits end at the first character that is none. -/
theorem digits_append_inj {c : Char} (hc : c.isDigit = false) {a a' r r' : Text}
    (ha : ∀ x ∈ a, x.isDigit = true) (ha' : ∀ x ∈ a', x.isDigit = true)
    (h : a ++ c :: r = a' ++ c :: r') : a = a' ∧ r = r' := by
  have hsep : ∀ {t : Text}, (∀ x ∈ t, x.isDigit = true) → c ∉ t := by
    intro t ht hmem
    have hdigit := ht c hmem
    rw [hc] at hdigit
    cases hdigit
  exact append_sep_inj (hsep ha) (hsep ha') h

theorem getLast?_append_word {t word : Text} (hword : word ≠ []) :
    (t ++ word).getLast? = word.getLast? := by
  rw [List.getLast?_append, Option.or_of_isSome]
  rw [List.getLast?_isSome]
  exact hword

/-- `sep.join(parts)`. -/
def join (sep : Text) : List Text → Text
  | [] => []
  | [part] => part
  | part :: part' :: parts => part ++ (sep ++ join sep (part' :: parts))

/-- A number in hexadecimal, with zeros in front. -/
def hex (width n : Nat) : Text :=
  let digits := Nat.toDigits 16 n
  List.replicate (width - digits.length) '0' ++ digits

/-- One character inside `repr`; `printable` is `str.isprintable`. -/
def reprChar (printable : Char → Bool) (quote c : Char) : Text :=
  if c = quote ∨ c = '\\' then ['\\', c]
  else if c = '\t' then "\\t".toList
  else if c = '\n' then "\\n".toList
  else if c = '\r' then "\\r".toList
  else if printable c then [c]
  else if c.toNat ≤ 0xff then "\\x".toList ++ hex 2 c.toNat
  else if c.toNat ≤ 0xffff then "\\u".toList ++ hex 4 c.toNat
  else "\\U".toList ++ hex 8 c.toNat

/-- `repr(t)`: double quotes only around a text that has single ones and no
double ones. -/
def repr (printable : Char → Bool) (t : Text) : Text :=
  let quote := if t.contains '\'' && !t.contains '"' then '"' else '\''
  quote :: (t.flatMap (reprChar printable quote) ++ [quote])

end Text

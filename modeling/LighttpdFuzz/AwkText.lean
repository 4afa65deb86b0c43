import LighttpdFuzz.PyText

/-!
# Fields and comparisons of awk

What comes from the input is compared as numbers if it looks like numbers
on both sides, and as text otherwise. A text with an `E` between digits
looks like a number, so different texts may be the same: `same_of_not_number`
and `number_eq_some` say when they are not. Columns and numerals of a fixed
width are read back as they were printed (`fields_word`, `hex_injective`).
-/

namespace AwkText

def isBlank (c : Char) : Bool := c = ' ' || c = '\t'

/-- The fields of a line, the first of which has begun with `field`. -/
def fieldsFrom (field : Text) : Text → List Text
  | [] => if field.isEmpty then [] else [field]
  | c :: t =>
      if isBlank c then
        if field.isEmpty then fieldsFrom [] t else field :: fieldsFrom [] t
      else fieldsFrom (field ++ [c]) t

/-- `$1`, `$2`, ... -/
def fields (line : Text) : List Text := fieldsFrom [] line

/-- What stands between the first separator and the second one, the second
element of `split(...)`. -/
def secondPart (sep : Char) (t : Text) : Text :=
  ((t.dropWhile (· ≠ sep)).drop 1).takeWhile (· ≠ sep)

/-- The number that a text looks like, for a text without blanks, signs
and points. -/
def number (t : Text) : Option Nat :=
  let mantissa := t.takeWhile Char.isDigit
  if mantissa = [] then none
  else
    match t.dropWhile Char.isDigit with
    | [] => some (Nat.ofDigitChars 10 mantissa 0)
    | e :: exponent =>
        if (e = 'E' ∨ e = 'e') ∧ exponent ≠ [] ∧ exponent.all Char.isDigit then
          some (Nat.ofDigitChars 10 mantissa 0 * 10 ^ Nat.ofDigitChars 10 exponent 0)
        else none

/-- `==`, of two texts from the input. -/
def same (a b : Text) : Bool :=
  match number a, number b with
  | some m, some n => m == n
  | _, _ => decide (a = b)

/-! ## Fields -/

theorem fieldsFrom_word {word : Text} (hword : ∀ c ∈ word, isBlank c = false) (t : Text) :
    ∀ field : Text, fieldsFrom field (word ++ t) = fieldsFrom (field ++ word) t := by
  induction word with
  | nil =>
      intro field
      rw [List.nil_append, List.append_nil]
  | cons c word ih =>
      intro field
      obtain ⟨hc, hword⟩ := List.forall_mem_cons.mp hword
      rw [List.cons_append, fieldsFrom, if_neg (by rw [hc]; exact Bool.false_ne_true), ih hword,
        List.append_assoc, List.singleton_append]

/-- A column is the next field. -/
theorem fields_word {word : Text} (hne : word ≠ []) (hword : ∀ c ∈ word, isBlank c = false)
    (t : Text) : fields (word ++ ' ' :: t) = word :: fields t := by
  have hempty : word.isEmpty = false := by rwa [List.isEmpty_eq_false_iff]
  rw [fields, fieldsFrom_word hword, List.nil_append, fieldsFrom, if_pos (by rfl),
    if_neg (by rw [hempty]; exact Bool.false_ne_true), fields]

theorem fields_blanks (n : Nat) (t : Text) :
    fields (List.replicate n ' ' ++ t) = fields t := by
  induction n with
  | zero => rfl
  | succ n ih =>
      rw [← ih]
      rfl

theorem secondPart_append {sep : Char} {a b : Text} (ha : sep ∉ a) (hb : sep ∉ b) :
    secondPart sep (a ++ sep :: b) = b := by
  have hfirst : (a ++ sep :: b).dropWhile (· ≠ sep) = sep :: b := by
    rw [List.dropWhile_append_of_pos]
    · simp
    · intro c hc
      exact decide_eq_true fun heq => ha (heq ▸ hc)
  rw [secondPart, hfirst, List.drop_one, List.tail_cons, List.takeWhile_eq_self_iff]
  intro c hc
  exact decide_eq_true fun heq => hb (heq ▸ hc)

/-! ## Comparisons -/

theorem same_self (t : Text) : same t t = true := by
  unfold same
  cases number t <;> simp

/-- A text that does not look like a number is only the same as itself. -/
theorem same_of_not_number {a b : Text} (h : number b = none) : same a b = decide (a = b) := by
  unfold same
  rw [h]
  cases number a <;> rfl

/-- A number of few characters that no power of ten divides is written
out in full. -/
theorem number_eq_some {t : Text} {n : Nat} (h : number t = some n) (hlength : t.length ≤ 4)
    (hlarge : 100 ≤ n) (hten : ¬ 10 ∣ n) :
    (∀ c ∈ t, c.isDigit = true) ∧ Nat.ofDigitChars 10 t 0 = n := by
  have hsplit := List.takeWhile_append_dropWhile (p := Char.isDigit) (l := t)
  have hdigits : ∀ c ∈ t.takeWhile Char.isDigit, c.isDigit = true :=
    fun c hc => List.mem_takeWhile_imp hc
  unfold number at h
  dsimp only at h
  split at h
  · cases h
  · split at h
    · next hrest =>
        rw [hrest, List.append_nil] at hsplit
        rw [hsplit] at h hdigits
        exact ⟨hdigits, Option.some.inj h⟩
    · next e exponent hrest =>
        split at h
        · next hexponent =>
            have hvalue := Option.some.inj h
            have hlt := Text.ofDigitChars_lt hdigits
            have hshort : (t.takeWhile Char.isDigit).length ≤ 2 := by
              have hlengths := congrArg List.length hsplit
              rw [hrest, List.length_append, List.length_cons] at hlengths
              have hpos := List.length_pos_iff.mpr hexponent.2.1
              omega
            have hpow : 10 ^ (t.takeWhile Char.isDigit).length ≤ 10 ^ 2 :=
              Nat.pow_le_pow_right (by decide) hshort
            cases hpower : Nat.ofDigitChars 10 exponent 0 with
            | zero =>
                rw [hpower, Nat.pow_zero, Nat.mul_one] at hvalue
                omega
            | succ power =>
                rw [hpower, Nat.pow_succ, ← Nat.mul_assoc] at hvalue
                exact absurd ⟨_, hvalue.symm.trans (Nat.mul_comm _ 10)⟩ hten
        · cases h

/-! ## Numbers of a fixed width -/

def hexDigit (n : Nat) : Char := (Nat.digitChar n).toUpper

/-- `%0` `width` `X` -/
def hex (width n : Nat) : Text :=
  let digits := (Nat.toDigits 16 n).map Char.toUpper
  List.replicate (width - digits.length) '0' ++ digits

def hexValue (t : Text) : Nat :=
  t.foldl (fun value c => 16 * value + if c.isDigit then c.toNat - 48 else c.toNat - 55) 0

theorem hexDigit_value : ∀ n < 16,
    (if (hexDigit n).isDigit then (hexDigit n).toNat - 48 else (hexDigit n).toNat - 55) = n
      ∧ isBlank (hexDigit n) = false ∧ hexDigit n ≠ ':' := by
  decide

/-- By induction on the number: the last digit goes to the remainder. -/
theorem hexValue_toDigits (n : Nat) : hexValue ((Nat.toDigits 16 n).map Char.toUpper) = n := by
  induction n using Nat.strongRecOn with
  | ind n ih =>
      rcases Nat.lt_or_ge n 16 with hlt | hle
      · rw [Nat.toDigits_of_lt_base hlt]
        exact (Nat.zero_add _).trans (hexDigit_value n hlt).1
      · rw [Nat.toDigits_of_base_le (by decide) hle, List.map_append, hexValue, List.foldl_append]
        have hquotient := ih (n / 16) (by omega)
        rw [hexValue] at hquotient
        rw [hquotient]
        have hlast := (hexDigit_value (n % 16) (by omega)).1
        exact (congrArg (16 * (n / 16) + ·) hlast).trans (Nat.div_add_mod n 16)

theorem hexValue_zeros (k : Nat) (t : Text) :
    hexValue (List.replicate k '0' ++ t) = hexValue t := by
  induction k with
  | zero => rfl
  | succ k ih => exact ih

theorem hexValue_hex (width n : Nat) : hexValue (hex width n) = n :=
  (hexValue_zeros _ _).trans (hexValue_toDigits n)

theorem hex_injective {width m n : Nat} (h : hex width m = hex width n) : m = n := by
  rw [← hexValue_hex width m, h, hexValue_hex]

theorem length_hex {width n : Nat} (hpos : 0 < width) (hlt : n < 16 ^ width) :
    (hex width n).length = width := by
  have hle := (Nat.length_toDigits_le_iff (b := 16) (by decide) hpos).mpr hlt
  unfold hex
  simp only [List.length_append, List.length_replicate, List.length_map]
  omega

theorem mem_toDigits {n : Nat} {c : Char} (h : c ∈ Nat.toDigits 16 n) :
    ∃ d < 16, c = Nat.digitChar d := by
  induction n using Nat.strongRecOn with
  | ind n ih =>
      rcases Nat.lt_or_ge n 16 with hlt | hle
      · rw [Nat.toDigits_of_lt_base hlt] at h
        exact ⟨n, hlt, List.mem_singleton.mp h⟩
      · rw [Nat.toDigits_of_base_le (by decide) hle] at h
        rcases List.mem_append.mp h with h | h
        · exact ih (n / 16) (by omega) h
        · exact ⟨n % 16, by omega, List.mem_singleton.mp h⟩

/-- A numeral is one column and has no separator in it. -/
theorem hex_plain {width n : Nat} {c : Char} (h : c ∈ hex width n) :
    isBlank c = false ∧ c ≠ ':' := by
  rcases List.mem_append.mp h with h | h
  · rw [List.eq_of_mem_replicate h]
    decide
  · obtain ⟨c, hc, rfl⟩ := List.mem_map.mp h
    obtain ⟨d, hd, rfl⟩ := mem_toDigits hc
    exact (hexDigit_value d hd).2

theorem hex_ne_nil (width n : Nat) : hex width n ≠ [] := by
  have hne : (Nat.toDigits 16 n).map Char.toUpper ≠ [] :=
    fun h => Nat.toDigits_ne_nil (List.map_eq_nil_iff.mp h)
  exact List.append_ne_nil_of_right_ne_nil _ hne

end AwkText

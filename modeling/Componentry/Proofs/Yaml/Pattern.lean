import Componentry.Proofs.Yaml.Number
import Mathlib.Computability.RegularExpressions

/-!
# The patterns of numbers

Integers and numbers are two regular languages, given here by regular expressions: `integer` and
`number`.  The rules for plain scalars know these texts and no others (`isInteger_iff_mem`,
`isNumber_iff_mem`).
-/

namespace Componentry.Yaml.Pattern

open Numeral (Sign Decimal Exponent digit numeral)
open RegularExpression (char)

/-! ## Expressions -/

/-- One of several characters. -/
def oneOf (cs : List Char) : RegularExpression Char :=
  cs.foldr (fun c p => char c + p) 0

/-- Several characters one after another. -/
def word (cs : List Char) : RegularExpression Char :=
  cs.foldr (fun c p => char c * p) 1

/-- One of several words. -/
def anyOf (words : List String) : RegularExpression Char :=
  words.foldr (fun w p => word w.toList + p) 0

/-- What the expression matches, or nothing. -/
def optional (p : RegularExpression Char) : RegularExpression Char :=
  1 + p

/-- What the expression matches, once or more often. -/
def repeated (p : RegularExpression Char) : RegularExpression Char :=
  p * p.star

/-- The digits of base ten. -/
def decimalDigits : List Char :=
  "0123456789".toList

/-- The digits of base sixteen. -/
def hexDigits : List Char :=
  "0123456789abcdefABCDEF".toList

/-- A sign, or none. -/
def sign : RegularExpression Char :=
  optional (oneOf ['-', '+'])

/-- A zero alone, or digits that start with another one. -/
def shortest : RegularExpression Char :=
  char '0' + oneOf "123456789".toList * (oneOf decimalDigits).star

/-- Integers: `[-+]?(0|[1-9][0-9]*)|0x[0-9a-fA-F]+`. -/
def integer : RegularExpression Char :=
  sign * shortest + word "0x".toList * repeated (oneOf hexDigits)

/-- Digits with a point in front, or with or without a point behind the first. -/
def mantissa : RegularExpression Char :=
  char '.' * repeated (oneOf decimalDigits) +
    repeated (oneOf decimalDigits) * optional (char '.' * (oneOf decimalDigits).star)

/-- The exponent of a number. -/
def exponent : RegularExpression Char :=
  oneOf ['e', 'E'] * (sign * repeated (oneOf decimalDigits))

/-- Numbers: `[-+]?(\.[0-9]+|[0-9]+(\.[0-9]*)?)([eE][-+]?[0-9]+)?`, `[-+]?\.(inf|Inf|INF)` or
`\.(nan|NaN|NAN)`. -/
def number : RegularExpression Char :=
  sign * (mantissa * optional exponent) +
    sign * (char '.' * anyOf ["inf", "Inf", "INF"]) +
    char '.' * anyOf ["nan", "NaN", "NAN"]

/-! ## What they match -/

variable {x : List Char} {cs : List Char} {p q : RegularExpression Char}

theorem mem_add : x ∈ (p + q).matches' ↔ x ∈ p.matches' ∨ x ∈ q.matches' :=
  Iff.rfl

theorem mem_mul : x ∈ (p * q).matches' ↔ ∃ y ∈ p.matches', ∃ z ∈ q.matches', y ++ z = x :=
  Language.mem_mul

theorem mem_char {c : Char} : x ∈ (char c).matches' ↔ x = [c] :=
  Iff.rfl

theorem mem_optional : x ∈ (optional p).matches' ↔ x = [] ∨ x ∈ p.matches' :=
  Iff.rfl

theorem mem_char_mul {c : Char} : x ∈ (char c * p).matches' ↔ ∃ y ∈ p.matches', x = c :: y := by
  rw [mem_mul]
  constructor
  · rintro ⟨_, rfl, y, hy, rfl⟩
    exact ⟨y, hy, rfl⟩
  · rintro ⟨y, hy, rfl⟩
    exact ⟨[c], rfl, y, hy, rfl⟩

theorem mem_oneOf : x ∈ (oneOf cs).matches' ↔ ∃ c ∈ cs, x = [c] := by
  induction cs with
  | nil => exact iff_of_false (Language.notMem_zero x) (by simp)
  | cons c cs ih =>
    rw [oneOf, List.foldr_cons, mem_add, mem_char, ← oneOf, ih]
    simp only [List.mem_cons, exists_eq_or_imp]

theorem mem_word : x ∈ (word cs).matches' ↔ x = cs := by
  induction cs generalizing x with
  | nil => exact Iff.rfl
  | cons c cs ih =>
    rw [word, List.foldr_cons, mem_char_mul, ← word]
    simp only [ih, exists_eq_left]

theorem mem_anyOf {words : List String} : x ∈ (anyOf words).matches' ↔ ∃ w ∈ words, x = w.toList := by
  induction words with
  | nil => exact iff_of_false (Language.notMem_zero x) (by simp)
  | cons w words ih =>
    rw [anyOf, List.foldr_cons, mem_add, mem_word, ← anyOf, ih]
    simp only [List.mem_cons, exists_eq_or_imp]

theorem mem_word_mul : x ∈ (word cs * p).matches' ↔ ∃ y ∈ p.matches', x = cs ++ y := by
  rw [mem_mul]
  constructor
  · rintro ⟨_, hw, y, hy, rfl⟩
    exact ⟨y, hy, by rw [mem_word.mp hw]⟩
  · rintro ⟨y, hy, rfl⟩
    exact ⟨cs, mem_word.mpr rfl, y, hy, rfl⟩

theorem mem_star_oneOf : x ∈ (oneOf cs).star.matches' ↔ ∀ c ∈ x, c ∈ cs := by
  constructor
  · rintro ⟨pieces, rfl, hpieces⟩ c hc
    obtain ⟨piece, hpiece, hmem⟩ := List.mem_flatten.mp hc
    obtain ⟨d, hd, rfl⟩ := mem_oneOf.mp (hpieces piece hpiece)
    obtain rfl := List.mem_singleton.mp hmem
    exact hd
  · intro h
    refine ⟨x.map ([·]), by rw [← List.flatMap_def, List.flatMap_singleton'], ?_⟩
    exact List.forall_mem_map.mpr fun c hc => mem_oneOf.mpr ⟨c, h c hc, rfl⟩

theorem mem_repeated_oneOf : x ∈ (repeated (oneOf cs)).matches' ↔ x ≠ [] ∧ ∀ c ∈ x, c ∈ cs := by
  rw [repeated, mem_mul]
  constructor
  · rintro ⟨y, hy, z, hz, rfl⟩
    obtain ⟨c, hc, rfl⟩ := mem_oneOf.mp hy
    exact ⟨by simp, List.forall_mem_cons.mpr ⟨hc, mem_star_oneOf.mp hz⟩⟩
  · rintro ⟨hne, h⟩
    obtain ⟨c, y, rfl⟩ := List.exists_cons_of_ne_nil hne
    obtain ⟨hc, hy⟩ := List.forall_mem_cons.mp h
    exact ⟨[c], mem_oneOf.mpr ⟨c, hc, rfl⟩, y, mem_star_oneOf.mpr hy, rfl⟩

/-! ## Digits and signs -/

theorem mem_sign : x ∈ sign.matches' ↔ ∃ s : Sign, x = s.chars := by
  rw [sign, mem_optional, mem_oneOf]
  constructor
  · rintro (rfl | ⟨c, hc, rfl⟩)
    · exact ⟨.none, rfl⟩
    · rcases List.mem_pair.mp hc with rfl | rfl
      · exact ⟨.minus, rfl⟩
      · exact ⟨.plus, rfl⟩
  · rintro ⟨s, rfl⟩
    cases s with
    | none => exact .inl rfl
    | plus => exact .inr ⟨'+', by simp, rfl⟩
    | minus => exact .inr ⟨'-', by simp, rfl⟩

theorem mem_sign_mul : x ∈ (sign * p).matches' ↔ ∃ s : Sign, ∃ y ∈ p.matches', x = s.chars ++ y := by
  rw [mem_mul]
  constructor
  · rintro ⟨_, hs, y, hy, rfl⟩
    obtain ⟨s, rfl⟩ := mem_sign.mp hs
    exact ⟨s, y, hy, rfl⟩
  · rintro ⟨s, y, hy, rfl⟩
    exact ⟨s.chars, mem_sign.mpr ⟨s, rfl⟩, y, hy, rfl⟩

theorem mem_decimalDigits {c : Char} : c ∈ decimalDigits ↔ digit c < 10 :=
  mem_digits_iff

theorem mem_hexDigits {c : Char} : c ∈ hexDigits ↔ digit c < 16 :=
  Numeral.mem_iff_digit_lt (by decide) (by decide) (by decide +kernel)

theorem mem_digits : x ∈ (repeated (oneOf decimalDigits)).matches' ↔ x ≠ [] ∧ ∀ c ∈ x, digit c < 10 := by
  simp only [mem_repeated_oneOf, mem_decimalDigits]

theorem mem_digits_star : x ∈ (oneOf decimalDigits).star.matches' ↔ ∀ c ∈ x, digit c < 10 := by
  simp only [mem_star_oneOf, mem_decimalDigits]

/-! ## Integers -/

theorem mem_shortest : x ∈ shortest.matches' ↔ IsShortest x := by
  have hnonzero : ∀ c, c ∈ "123456789".toList ↔ digit c < 10 ∧ c ≠ '0' := by
    intro c
    rw [← mem_decimalDigits]
    constructor
    · intro hc
      exact ⟨List.mem_cons_of_mem '0' hc, fun h => absurd (h ▸ hc) (by decide)⟩
    · rintro ⟨hc, hne⟩
      exact (List.mem_cons.mp hc).resolve_left hne
  rw [shortest, mem_add, mem_char, mem_mul]
  constructor
  · rintro (rfl | ⟨_, hy, z, hz, rfl⟩)
    · exact ⟨by simp, List.forall_mem_singleton.mpr (by decide), by simp⟩
    · obtain ⟨c, hc, rfl⟩ := mem_oneOf.mp hy
      obtain ⟨hdigit, hne⟩ := (hnonzero c).mp hc
      refine ⟨by simp, List.forall_mem_cons.mpr ⟨hdigit, mem_digits_star.mp hz⟩, fun h => ?_⟩
      exact absurd (Option.some.inj h) hne
  · intro h
    obtain ⟨c, z, rfl⟩ := List.exists_cons_of_ne_nil h.ne
    obtain ⟨hc, hz⟩ := List.forall_mem_cons.mp h.lt
    by_cases hzero : c = '0'
    · subst hzero
      have hlength := h.zero rfl
      exact .inl (by rw [List.length_eq_zero_iff.mp (Nat.succ.inj hlength)])
    · exact .inr ⟨[c], mem_oneOf.mpr ⟨c, (hnonzero c).mpr ⟨hc, hzero⟩, rfl⟩, z,
        mem_digits_star.mpr hz, rfl⟩

/-- **The rule for integers knows what the expression matches.** -/
theorem isInteger_iff_mem : isInteger x = true ↔ x ∈ integer.matches' := by
  rw [isInteger_iff, integer, mem_add, mem_sign_mul, mem_word_mul]
  refine or_congr (exists_congr fun s => exists_congr fun ds => ?_) (exists_congr fun ds => ?_)
  · rw [mem_shortest, and_comm]
  · simp only [mem_repeated_oneOf, mem_hexDigits]
    exact and_comm

/-! ## Numbers -/

theorem mem_exponent : x ∈ exponent.matches' ↔ ∃ e : Exponent, x = e.chars := by
  rw [exponent, mem_mul]
  constructor
  · rintro ⟨_, hy, _, hz, rfl⟩
    obtain ⟨c, hc, rfl⟩ := mem_oneOf.mp hy
    obtain ⟨s, ds, hds, rfl⟩ := mem_sign_mul.mp hz
    obtain ⟨hne, hlt⟩ := mem_digits.mp hds
    exact ⟨⟨c, s, ds, List.mem_pair.mp hc, hne, hlt⟩, rfl⟩
  · rintro ⟨e, rfl⟩
    refine ⟨[e.letter], mem_oneOf.mpr ⟨e.letter, List.mem_pair.mpr e.letter_eq, rfl⟩, _, ?_, rfl⟩
    exact mem_sign_mul.mpr ⟨e.sign, e.digits, mem_digits.mpr ⟨e.digits_ne, e.digits_lt⟩, rfl⟩

theorem mem_optional_exponent :
    x ∈ (optional exponent).matches' ↔ ∃ e : Option Exponent, x = e.elim [] Exponent.chars := by
  rw [mem_optional, mem_exponent]
  constructor
  · rintro (rfl | ⟨e, rfl⟩)
    · exact ⟨none, rfl⟩
    · exact ⟨some e, rfl⟩
  · rintro ⟨_ | e, rfl⟩
    · exact .inl rfl
    · exact .inr ⟨e, rfl⟩

/-- The digits of a number, with the point where the expression has it. -/
theorem mem_mantissa : x ∈ mantissa.matches' ↔ ∃ (whole : List Char)
    (fraction : Option (List Char)), x = whole ++ fraction.elim [] ('.' :: ·) ∧ whole ++ fraction.getD [] ≠ [] ∧ (∀ c ∈ whole, digit c < 10) ∧ ∀ c ∈ fraction.getD [], digit c < 10 := by
  rw [mantissa, mem_add, mem_char_mul, mem_mul]
  constructor
  · rintro (⟨ds, hds, rfl⟩ | ⟨ws, hws, y, hy, rfl⟩)
    · obtain ⟨hne, hlt⟩ := mem_digits.mp hds
      exact ⟨[], some ds, rfl, hne, by simp, hlt⟩
    · obtain ⟨hne, hlt⟩ := mem_digits.mp hws
      rcases mem_optional.mp hy with rfl | hy
      · exact ⟨ws, none, rfl, by simpa using hne, hlt, by simp⟩
      · obtain ⟨ds, hds, rfl⟩ := mem_char_mul.mp hy
        exact ⟨ws, some ds, rfl, by simp [hne], hlt, mem_digits_star.mp hds⟩
  · rintro ⟨whole, fraction, rfl, hne, hwhole, hfraction⟩
    by_cases hempty : whole = []
    · -- without digits in front there is a point, with digits behind it
      subst hempty
      cases fraction with
      | none => exact absurd rfl hne
      | some ds => exact .inl ⟨ds, mem_digits.mpr ⟨hne, hfraction⟩, rfl⟩
    · refine .inr ⟨whole, mem_digits.mpr ⟨hempty, hwhole⟩, _, ?_, rfl⟩
      cases fraction with
      | none => exact mem_optional.mpr (.inl rfl)
      | some ds => exact mem_optional.mpr (.inr (mem_char_mul.mpr ⟨ds, mem_digits_star.mpr hfraction, rfl⟩))

theorem mem_decimal : x ∈ (mantissa * optional exponent).matches' ↔ ∃ d : Decimal, x = d.chars := by
  have hchars : ∀ d : Decimal, d.chars = (d.whole ++ d.fraction.elim [] ('.' :: ·)) ++ d.exponentChars := by
    intro d
    rw [Decimal.chars, Decimal.tail]
    cases d.fraction <;> simp
  rw [mem_mul]
  constructor
  · rintro ⟨_, hm, _, he, rfl⟩
    obtain ⟨whole, fraction, rfl, hne, hwhole, hfraction⟩ := mem_mantissa.mp hm
    obtain ⟨e, rfl⟩ := mem_optional_exponent.mp he
    exact ⟨_, (hchars ⟨whole, fraction, e, hwhole, hfraction, hne⟩).symm⟩
  · rintro ⟨d, rfl⟩
    refine ⟨_, mem_mantissa.mpr ⟨d.whole, d.fraction, rfl, d.digits_ne, d.whole_lt, d.fraction_lt⟩, _,
      mem_optional_exponent.mpr ⟨d.exponent, rfl⟩, (hchars d).symm⟩

theorem mem_dot_anyOf {words : List String} :
    x ∈ (char '.' * anyOf words).matches' ↔ ∃ w ∈ words.map ("." ++ ·), x = w.toList := by
  rw [mem_char_mul]
  constructor
  · rintro ⟨_, hy, rfl⟩
    obtain ⟨w, hw, rfl⟩ := mem_anyOf.mp hy
    exact ⟨"." ++ w, List.mem_map_of_mem hw, by rw [String.toList_append]; rfl⟩
  · rintro ⟨_, hmap, rfl⟩
    obtain ⟨w, hw, rfl⟩ := List.mem_map.mp hmap
    exact ⟨w.toList, mem_anyOf.mpr ⟨w, hw, rfl⟩, String.toList_append⟩

/-- **The rule for numbers knows what the expression matches.** -/
theorem isNumber_iff_mem : isNumber x = true ↔ x ∈ number.matches' := by
  rw [isNumber_iff, number, mem_add, mem_add, or_assoc, mem_sign_mul, mem_sign_mul, mem_dot_anyOf]
  refine or_congr (exists_congr fun s => ?_) (or_congr (exists_congr fun s => ?_) Iff.rfl)
  · constructor
    · rintro ⟨d, hd⟩
      exact ⟨d.chars, mem_decimal.mpr ⟨d, rfl⟩, hd⟩
    · rintro ⟨_, hy, hd⟩
      obtain ⟨d, rfl⟩ := mem_decimal.mp hy
      exact ⟨d, hd⟩
  · constructor
    · rintro ⟨w, hw, hx⟩
      exact ⟨w.toList, mem_dot_anyOf.mpr ⟨w, hw, rfl⟩, hx⟩
    · rintro ⟨_, hy, hx⟩
      obtain ⟨w, hw, rfl⟩ := mem_dot_anyOf.mp hy
      exact ⟨w, hw, hx⟩

end Componentry.Yaml.Pattern

import Componentry.Decimal.Numeral
import Mathlib.Data.List.TakeWhile
import Mathlib.Data.Nat.Digits.Defs

/-!
# What numerals spell

`numeral base ds` is the number that digits spell in a base: the sum of the digits times powers of
the base.  The readers of integers and of numbers with a fraction agree with it on texts of plain
digits.
-/

namespace Componentry.Numeral

/-! ## Digits -/

/-- The digits of the bases up to sixteen, by value. -/
def digits : List Char :=
  "0123456789abcdef".toList

/-- The value of a digit, a letter in either case.  What is no digit counts as sixteen. -/
def digit (c : Char) : Nat :=
  digits.idxOf c.toLower

/-- The number that digits spell in a base. -/
def numeral (base : Nat) (ds : List Char) : Nat :=
  Nat.ofDigits base (ds.reverse.map digit)

/-- Whether a character is in ASCII and leaves ink. -/
def isVisible (c : Char) : Bool :=
  0x20 < c.toNat && c.toNat < 0x7F

/-- Whether the readers of digits make of a character what its value says. -/
def agrees (c : Char) : Bool :=
  c.isDigit == decide (digit c < 10) && (Text.hexValue? c).isSome == decide (digit c < 16) &&
    (digitValue? c).filter (· < 16) == (if digit c < 16 then some (digit c) else none) &&
    (digit c == 16 || isVisible c)

theorem agrees_ascii : ((List.range 128).map Char.ofNat).all agrees = true := by
  decide +kernel

/-- Beyond ASCII there are no digits. -/
theorem agrees_wide {c : Char} (h : 128 ≤ c.toNat) : agrees c = true := by
  have hbeyond : ∀ {d : Char}, d.toNat < 128 → ¬ c.val ≤ d.val := fun hd hle => by
    have hle' : c.toNat ≤ _ := UInt32.le_iff_toNat_le.mp hle
    exact absurd (Nat.lt_of_le_of_lt hle' hd) (Nat.not_lt.mpr h)
  have hlower : c.toLower = c := dif_neg fun hc => hbeyond (by decide) hc.2
  have hdigit : digit c = 16 := by
    rw [digit, hlower]
    refine List.idxOf_eq_length fun hmem => ?_
    have hascii : digits.all fun d => decide (d.toNat < 128) := by decide
    exact absurd (of_decide_eq_true (List.all_eq_true.mp hascii c hmem)) (Nat.not_lt.mpr h)
  have hrange : ∀ {first last : Char}, last.toNat < 128 →
      (decide (c.val ≥ first.val) && decide (c.val ≤ last.val)) = false := fun hlast => by
    rw [decide_eq_false (hbeyond hlast), Bool.and_false]
  have hisDigit : c.isDigit = false := hrange (by decide)
  have hisLower : c.isLower = false := hrange (by decide)
  have hisUpper : c.isUpper = false := decide_eq_false fun hc => hbeyond (by decide) hc.2
  have hvalue : digitValue? c = none := by
    rw [digitValue?, hisDigit, hisLower, hisUpper]
    rfl
  have hhex : Text.hexValue? c = none := by
    unfold Text.hexValue?
    dsimp only
    rw [if_neg (by simp; omega), if_neg (by simp; omega), if_neg (by simp; omega)]
  rw [agrees, hdigit, hisDigit, hvalue, hhex]
  rfl

theorem agrees_all (c : Char) : agrees c = true := by
  rcases Nat.lt_or_ge c.toNat 128 with h | h
  · refine List.all_eq_true.mp agrees_ascii c (List.mem_map.mpr ⟨c.toNat, List.mem_range.mpr h, ?_⟩)
    exact Char.ofNat_toNat c
  · exact agrees_wide h

theorem isDigit_iff {c : Char} : c.isDigit = true ↔ digit c < 10 := by
  have h := agrees_all c
  simp only [agrees, Bool.and_eq_true, beq_iff_eq] at h
  rw [h.1.1.1, decide_eq_true_iff]

theorem isSome_hexValue?_iff {c : Char} : (Text.hexValue? c).isSome = true ↔ digit c < 16 := by
  have h := agrees_all c
  simp only [agrees, Bool.and_eq_true, beq_iff_eq] at h
  rw [h.1.1.2, decide_eq_true_iff]

theorem digitValue?_of_lt {c : Char} (hc : digit c < 16) : digitValue? c = some (digit c) := by
  have h := agrees_all c
  simp only [agrees, Bool.and_eq_true, beq_iff_eq] at h
  have hfilter := h.1.2
  rw [if_pos hc] at hfilter
  exact (Option.filter_eq_some_iff.mp hfilter).1

theorem isDigitIn_iff {base : Nat} (hb : base ≤ 16) {c : Char} :
    isDigitIn base c = true ↔ digit c < base := by
  have h := agrees_all c
  simp only [agrees, Bool.and_eq_true, beq_iff_eq] at h
  rw [isDigitIn, Option.any_eq_true]
  constructor
  · rintro ⟨d, hd, hlt⟩
    have hlt' : d < base := of_decide_eq_true hlt
    have hfilter := h.1.2
    rw [hd, Option.filter_some_pos (by simpa using Nat.lt_of_lt_of_le hlt' hb)] at hfilter
    split at hfilter
    · cases hfilter
      exact hlt'
    · cases hfilter
  · intro hlt
    exact ⟨_, digitValue?_of_lt (Nat.lt_of_lt_of_le hlt hb), decide_eq_true hlt⟩

/-- The digits are taken from the most significant one on. -/
theorem natOf_eq {base : Nat} {ds : List Char} (h : ∀ c ∈ ds, digit c < 16) :
    natOf base ds = numeral base ds := by
  have hfold : ∀ (ds : List Char) (n : Nat), (∀ c ∈ ds, digit c < 16) →
      ds.foldl (fun n c => base * n + (digitValue? c).getD 0) n =
        Nat.ofDigits base (ds.reverse.map digit) + base ^ ds.length * n := by
    intro ds
    induction ds with
    | nil => intro n _; simp
    | cons c ds ih =>
      intro n hds
      rw [List.foldl_cons, ih _ fun d hd => hds d (List.mem_cons_of_mem c hd),
        digitValue?_of_lt (hds c List.mem_cons_self), List.reverse_cons, List.map_append,
        Nat.ofDigits_append]
      simp
      ring
  rw [natOf, numeral, hfold ds 0 h]
  simp

theorem isVisible_of_lt {c : Char} (hc : digit c < 16) : isVisible c = true := by
  have h := agrees_all c
  simp only [agrees, Bool.and_eq_true, Bool.or_eq_true, beq_iff_eq] at h
  exact h.2.resolve_left (Nat.ne_of_lt hc)

/-- The digits of a base are in a list if those in ASCII are. -/
theorem mem_iff_digit_lt {base : Nat} {cs : List Char} (hb : base ≤ 16)
    (hcs : (cs.all fun c => digit c < base) = true)
    (hascii : (((List.range 128).map Char.ofNat).all fun c => base ≤ digit c || cs.contains c) = true)
    {c : Char} : c ∈ cs ↔ digit c < base := by
  refine ⟨fun hc => of_decide_eq_true (List.all_eq_true.mp hcs c hc), fun hc => ?_⟩
  have hlt : c.toNat < 128 := by
    have hvisible := isVisible_of_lt (Nat.lt_of_lt_of_le hc hb)
    simp only [isVisible, Bool.and_eq_true, decide_eq_true_eq] at hvisible
    omega
  have hone := List.all_eq_true.mp hascii c
    (List.mem_map.mpr ⟨c.toNat, List.mem_range.mpr hlt, Char.ofNat_toNat c⟩)
  rw [Bool.or_eq_true, decide_eq_true_iff] at hone
  exact List.contains_iff_mem.mp (hone.resolve_left (Nat.not_le.mpr hc))

/-! ## Integers -/

/-- A text without blanks and characters beyond ASCII is taken as it is. -/
theorem core_eq {cs : List Char} (h : ∀ c ∈ cs, isVisible c = true) : core cs = cs := by
  have hvisible : ∀ c ∈ cs, 0x20 < c.toNat ∧ c.toNat < 0x7F := by
    simpa [isVisible] using h
  have hblank : ∀ c ∈ cs, isPlainBlank c = false := by
    intro c hc
    have hrange := hvisible c hc
    have hne : c ≠ ' ' := by
      rintro rfl
      exact absurd hrange.1 (by decide)
    simp only [isPlainBlank, Bool.or_eq_false_iff, beq_eq_false_iff_ne, Bool.and_eq_false_iff,
      decide_eq_false_iff_not]
    exact ⟨hne, .inr (by omega)⟩
  have hdrop : ∀ ds : List Char, (∀ c ∈ ds, isPlainBlank c = false) →
      ds.dropWhile isPlainBlank = ds := by
    intro ds hds
    cases ds with
    | nil => rfl
    | cons c ds => exact List.dropWhile_cons_of_neg (by simp [hds c List.mem_cons_self])
  have hplain : withPlainDigits cs = cs := by
    refine (List.map_congr_left fun c hc => ?_).trans (List.map_id cs)
    rw [if_pos (hvisible c hc).2]
    rfl
  rw [core, hplain, hdrop cs hblank, hdrop cs.reverse fun c hc => hblank c (List.mem_reverse.mp hc),
    List.reverse_reverse]

theorem splitSign_eq {c : Char} {cs : List Char} (h : c ≠ '-' ∧ c ≠ '+') :
    splitSign (c :: cs) = (false, c :: cs) := by
  unfold splitSign
  split
  · next heq => exact absurd (List.cons.inj heq).1 h.1
  · next heq => exact absurd (List.cons.inj heq).1 h.2
  · rfl

theorem withoutBase_eq {base : Nat} {cs : List Char} (h : ∀ c ∈ cs, digit c < base) :
    withoutBase base cs = cs := by
  unfold withoutBase
  split
  · next c cs =>
    have hc : digit c < base := h c (by simp)
    have hletter : c ∉ baseLetters base := by
      unfold baseLetters
      split <;> simp only [List.mem_cons, List.not_mem_nil, or_false, not_or, not_false_eq_true] <;>
        constructor <;> rintro rfl <;> exact absurd hc (by decide)
    exact if_neg (mt List.contains_iff_mem.mp hletter)
  · rfl

/-- A text of digits is read as the number that they spell, if they are not too many. -/
theorem integer_digits {base : Nat} (hb : base ≤ 16) {ds : List Char} (hne : ds ≠ [])
    (h : ∀ c ∈ ds, digit c < base) : integer base ds =
      if base = 10 ∧ Text.digitLimit < ds.length then .error (.tooManyDigits ds.length)
      else .ok (numeral base ds : Nat) := by
  have hsixteen : ∀ c ∈ ds, digit c < 16 := fun c hc => Nat.lt_of_lt_of_le (h c hc) hb
  have hsign : splitSign ds = (false, ds) := by
    obtain ⟨c, cs, rfl⟩ := List.exists_cons_of_ne_nil hne
    have hc := hsixteen c List.mem_cons_self
    exact splitSign_eq ⟨by rintro rfl; exact absurd hc (by decide),
      by rintro rfl; exact absurd hc (by decide)⟩
  have hrun : ds.takeWhile (isDigitIn base) = ds :=
    List.takeWhile_eq_self_iff.mpr fun c hc => (isDigitIn_iff hb).mpr (h c hc)
  rw [integer, core_eq fun c hc => isVisible_of_lt (hsixteen c hc), hsign]
  dsimp only
  rw [withoutBase_eq h, hrun, natOf_eq hsixteen]
  simp only [Bool.and_eq_true, beq_iff_eq, decide_eq_true_eq]
  by_cases hlong : base = 10 ∧ Text.digitLimit < ds.length
  · rw [if_pos hlong, if_pos hlong]
  · rw [if_neg hlong, if_neg hlong, if_neg (by simp [hne])]
    rfl

/-! ## Numbers with a fraction -/

/-- A sign in front of a number, or none. -/
inductive Sign where
  | none
  | plus
  | minus
  deriving DecidableEq

namespace Sign

/-- The sign as it is written. -/
def chars : Sign → List Char
  | .none => []
  | .plus => ['+']
  | .minus => ['-']

/-- Whether the number behind the sign counts below zero. -/
def isNegative (sign : Sign) : Bool :=
  sign == .minus

/-- The number with the sign. -/
def apply (sign : Sign) (n : Nat) : Int :=
  if sign.isNegative then -(n : Int) else n

end Sign

/-- An exponent, as it is written. -/
structure Exponent where
  letter : Char
  sign : Sign
  digits : List Char
  letter_eq : letter = 'e' ∨ letter = 'E'
  digits_ne : digits ≠ []
  digits_lt : ∀ c ∈ digits, digit c < 10

namespace Exponent

/-- The characters of an exponent. -/
def chars (x : Exponent) : List Char :=
  x.letter :: (x.sign.chars ++ x.digits)

/-- The power of ten that an exponent stands for. -/
def value (x : Exponent) : Int :=
  x.sign.apply (numeral 10 x.digits)

end Exponent

/-- A number without a sign, as it is written: digits, perhaps with a point in front of, between or
behind them, and perhaps an exponent. -/
structure Decimal where
  whole : List Char
  fraction : Option (List Char)
  exponent : Option Exponent
  whole_lt : ∀ c ∈ whole, digit c < 10
  fraction_lt : ∀ c ∈ fraction.getD [], digit c < 10
  digits_ne : whole ++ fraction.getD [] ≠ []

namespace Decimal

/-- The characters behind the point and its digits. -/
def exponentChars (x : Decimal) : List Char :=
  x.exponent.elim [] Exponent.chars

/-- The characters behind the first digits. -/
def tail (x : Decimal) : List Char :=
  match x.fraction with
  | none => x.exponentChars
  | some ds => '.' :: (ds ++ x.exponentChars)

/-- The characters of a number. -/
def chars (x : Decimal) : List Char :=
  x.whole ++ x.tail

/-- The digits of a number as an integer. -/
def mantissa (x : Decimal) : Nat :=
  numeral 10 (x.whole ++ x.fraction.getD [])

/-- The power of ten that goes with the digits. -/
def scale (x : Decimal) : Int :=
  x.exponent.elim 0 Exponent.value - (x.fraction.getD []).length

/-- The number that is written. -/
def magnitude (x : Decimal) : ℚ :=
  x.mantissa * 10 ^ x.scale

end Decimal

theorem splitSign_chars {sign : Sign} {ds : List Char} (hne : ds ≠ []) (h : ∀ c ∈ ds, digit c < 10) :
    splitSign (sign.chars ++ ds) = (sign.isNegative, ds) := by
  cases sign with
  | none =>
    obtain ⟨c, cs, rfl⟩ := List.exists_cons_of_ne_nil hne
    have hc := h c List.mem_cons_self
    exact splitSign_eq ⟨by rintro rfl; exact absurd hc (by decide),
      by rintro rfl; exact absurd hc (by decide)⟩
  | plus => rfl
  | minus => rfl

theorem exponent?_chars (x : Exponent) : exponent? x.chars = some x.value := by
  have hletter : (x.letter == 'e' || x.letter == 'E') = true := by
    rcases x.letter_eq with h | h <;> simp [h]
  have hdigits : x.digits.all Char.isDigit = true :=
    List.all_eq_true.mpr fun c hc => isDigit_iff.mpr (x.digits_lt c hc)
  have hsixteen : ∀ c ∈ x.digits, digit c < 16 := fun c hc => Nat.lt_trans (x.digits_lt c hc) (by decide)
  rw [Exponent.chars, exponent?, splitSign_chars x.digits_ne x.digits_lt]
  dsimp only
  rw [if_pos (by simp [hletter, hdigits, x.digits_ne]), natOf_eq hsixteen]
  rfl

/-- The run of digits at the start of a text. -/
theorem span_digits {ds rest : List Char} (h : ∀ c ∈ ds, digit c < 10)
    (hr : ∀ c ∈ rest.head?, ¬ digit c < 10) :
    (ds ++ rest).takeWhile Char.isDigit = ds ∧ (ds ++ rest).dropWhile Char.isDigit = rest := by
  have hall : ∀ c ∈ ds, c.isDigit = true := fun c hc => isDigit_iff.mpr (h c hc)
  rw [List.takeWhile_append_of_pos hall, List.dropWhile_append_of_pos hall]
  cases rest with
  | nil => simp
  | cons c rest =>
    have hc : c.isDigit = false := Bool.eq_false_iff.mpr (mt isDigit_iff.mp (hr c rfl))
    simp [hc]

variable (x : Decimal)

namespace Decimal

theorem not_digit_exponentChars : ∀ c ∈ x.exponentChars.head?, ¬ digit c < 10 := by
  intro c hc
  unfold exponentChars at hc
  cases hx : x.exponent with
  | none => simp [hx] at hc
  | some e =>
    obtain rfl : e.letter = c := by simpa [hx, Exponent.chars] using hc
    rcases e.letter_eq with h | h <;> rw [h] <;> decide

theorem not_digit_tail : ∀ c ∈ x.tail.head?, ¬ digit c < 10 := by
  unfold tail
  split
  · exact x.not_digit_exponentChars
  · simp
    decide

theorem span_chars : x.chars.takeWhile Char.isDigit = x.whole ∧
    x.chars.dropWhile Char.isDigit = x.tail :=
  span_digits x.whole_lt x.not_digit_tail

theorem exponent?_exponentChars :
    exponent? x.exponentChars = some (x.exponent.elim 0 Exponent.value) := by
  unfold exponentChars
  cases x.exponent with
  | none => rfl
  | some e => exact exponent?_chars e

theorem head?_exponentChars_ne : x.exponentChars.head? ≠ some '.' := by
  unfold exponentChars
  cases x.exponent with
  | none => simp
  | some e =>
    intro h
    obtain hletter : e.letter = '.' := Option.some.inj h
    rcases e.letter_eq with he | he <;> rw [he] at hletter <;> exact absurd hletter (by decide)

theorem unsigned?_chars (negative : Bool) :
    unsigned? negative x.chars = some (Double.ofDecimal negative x.mantissa x.scale) := by
  have hsixteen : ∀ c ∈ x.whole ++ x.fraction.getD [], digit c < 16 := fun c hc =>
    (List.mem_append.mp hc).elim (fun hw => Nat.lt_trans (x.whole_lt c hw) (by decide))
      fun hf => Nat.lt_trans (x.fraction_lt c hf) (by decide)
  have hne := x.digits_ne
  unfold unsigned?
  rw [x.span_chars.1, x.span_chars.2, mantissa, scale, ← natOf_eq hsixteen]
  unfold tail
  cases hf : x.fraction with
  | none =>
    rw [hf] at hne
    dsimp only
    split
    · next hdot => exact absurd (congrArg List.head? hdot) x.head?_exponentChars_ne
    · dsimp only
      rw [if_neg (by simpa using hne), x.exponent?_exponentChars]
      rfl
  | some ds =>
    have hdigits : ∀ c ∈ ds, digit c < 10 := by simpa [hf] using x.fraction_lt
    have hspan := span_digits hdigits x.not_digit_exponentChars
    rw [hf] at hne
    dsimp only
    split
    · next hdot =>
      obtain rfl := (List.cons.inj hdot).2
      dsimp only
      rw [hspan.1, hspan.2, if_neg (by simpa using hne), x.exponent?_exponentChars]
      rfl
    · next hdot => exact absurd rfl (hdot _)

theorem mem_chars {c : Char} (h : c ∈ x.chars) :
    digit c < 10 ∨ c = '.' ∨ c = 'e' ∨ c = 'E' ∨ c = '+' ∨ c = '-' := by
  have hexponent : c ∈ x.exponentChars →
      digit c < 10 ∨ c = '.' ∨ c = 'e' ∨ c = 'E' ∨ c = '+' ∨ c = '-' := by
    unfold exponentChars
    cases x.exponent with
    | none => simp
    | some e =>
      intro hc
      rcases List.mem_cons.mp hc with rfl | hc
      · rcases e.letter_eq with he | he <;> simp [he]
      · rcases List.mem_append.mp hc with hc | hc
        · cases hsign : e.sign <;> simp_all [Sign.chars]
        · exact .inl (e.digits_lt c hc)
  rcases List.mem_append.mp h with hc | hc
  · exact .inl (x.whole_lt c hc)
  · unfold tail at hc
    cases hf : x.fraction with
    | none => exact hexponent (by simpa [hf] using hc)
    | some ds =>
      have hdigits : ∀ c ∈ ds, digit c < 10 := by simpa [hf] using x.fraction_lt
      rw [hf] at hc
      rcases List.mem_cons.mp hc with rfl | hc
      · exact .inr (.inl rfl)
      · exact (List.mem_append.mp hc).elim (fun hc => .inl (hdigits c hc)) hexponent

theorem exists_cons : ∃ c cs, x.chars = c :: cs ∧ (digit c < 10 ∨ c = '.') := by
  have hne := x.digits_ne
  rw [chars, tail]
  cases hw : x.whole with
  | cons c cs =>
    exact ⟨c, _, rfl, .inl (x.whole_lt c (hw ▸ List.mem_cons_self))⟩
  | nil =>
    cases hf : x.fraction with
    | none => simp [hw, hf] at hne
    | some ds => exact ⟨'.', _, rfl, .inr rfl⟩

/-- A number as it is written is read as the nearest double. -/
theorem float_chars : float x.chars = .ok (Double.ofDecimal false x.mantissa x.scale) := by
  have hvisible : ∀ c ∈ x.chars, isVisible c = true := by
    intro c hc
    rcases x.mem_chars hc with h | rfl | rfl | rfl | rfl | rfl
    · exact isVisible_of_lt (Nat.lt_trans h (by decide))
    all_goals decide
  obtain ⟨c, cs, hcons, hc⟩ := x.exists_cons
  have hsign : splitSign x.chars = (false, x.chars) := by
    rw [hcons]
    refine splitSign_eq ⟨?_, ?_⟩ <;> rintro rfl <;> revert hc <;> decide
  -- the first character is none of those that names start with
  have hname : ∀ {d : Char} {ds : List Char}, digits.idxOf d = 16 ∧ d ≠ '.' →
      (String.ofList (x.chars.map Char.toLower) == String.ofList (d :: ds)) = false := by
    intro d ds hd
    rw [beq_eq_false_iff_ne]
    intro heq
    have hlist := String.ofList_inj.mp heq
    rw [hcons] at hlist
    have hlower : c.toLower = d := (List.cons.inj hlist).1
    rcases hc with hc | rfl
    · rw [digit, hlower, hd.1] at hc
      exact absurd hc (by decide)
    · exact hd.2 hlower.symm
  have hinf : (String.ofList (x.chars.map Char.toLower) == "inf") = false :=
    @hname 'i' ['n', 'f'] (by decide)
  have hinfinity : (String.ofList (x.chars.map Char.toLower) == "infinity") = false :=
    @hname 'i' ['n', 'f', 'i', 'n', 'i', 't', 'y'] (by decide)
  have hnan : (String.ofList (x.chars.map Char.toLower) == "nan") = false :=
    @hname 'n' ['a', 'n'] (by decide)
  rw [float, core_eq hvisible, hsign]
  dsimp only
  rw [x.unsigned?_chars, hinf, hinfinity, hnan]
  rfl

end Decimal

/-! ## Lower case -/

theorem toLower_of_lt {c : Char} (h : digit c < 10) : c.toLower = c := by
  have hdigit := isDigit_iff.mpr h
  simp only [Char.isDigit, Bool.and_eq_true, decide_eq_true_eq] at hdigit
  refine dif_neg fun hupper => ?_
  exact absurd (UInt32.le_trans hupper.1 hdigit.2) (by decide)

/-- The exponent with its letter in lower case. -/
def Exponent.lowered (x : Exponent) : Exponent :=
  { x with letter := 'e', letter_eq := .inl rfl }

/-- The number with its letter in lower case. -/
def Decimal.lowered (x : Decimal) : Decimal :=
  { x with exponent := x.exponent.map Exponent.lowered }

theorem map_toLower_digits {ds : List Char} (h : ∀ c ∈ ds, digit c < 10) :
    ds.map Char.toLower = ds :=
  (List.map_congr_left fun c hc => toLower_of_lt (h c hc)).trans (List.map_id ds)

theorem Sign.map_toLower_chars (sign : Sign) : sign.chars.map Char.toLower = sign.chars := by
  cases sign <;> rfl

theorem Exponent.chars_lowered (x : Exponent) : x.lowered.chars = x.chars.map Char.toLower := by
  have hletter : x.letter.toLower = 'e' := by
    rcases x.letter_eq with h | h <;> rw [h] <;> rfl
  rw [Exponent.chars, Exponent.chars, List.map_cons, List.map_append, hletter, Sign.map_toLower_chars,
    map_toLower_digits x.digits_lt]
  rfl

namespace Decimal

theorem exponentChars_lowered : x.lowered.exponentChars = x.exponentChars.map Char.toLower := by
  unfold exponentChars lowered
  cases x.exponent with
  | none => rfl
  | some e => exact e.chars_lowered

theorem chars_lowered : x.lowered.chars = x.chars.map Char.toLower := by
  have htail : x.lowered.tail = x.tail.map Char.toLower := by
    have hexponent := x.exponentChars_lowered
    unfold tail
    cases hf : x.fraction with
    | none =>
      rw [show x.lowered.fraction = none from hf]
      exact hexponent
    | some ds =>
      have hdigits : ∀ c ∈ ds, digit c < 10 := by simpa [hf] using x.fraction_lt
      rw [show x.lowered.fraction = some ds from hf]
      simp [hexponent, map_toLower_digits hdigits]
  rw [chars, chars, List.map_append, map_toLower_digits x.whole_lt, htail]
  rfl

theorem scale_lowered : x.lowered.scale = x.scale := by
  unfold scale lowered
  cases x.exponent <;> rfl

end Decimal

end Componentry.Numeral

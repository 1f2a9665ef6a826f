import Componentry.Proofs.Decimal.Numeral
import Componentry.Proofs.Decimal.Rounding
import Componentry.Yaml.Scalar

/-!
# Numbers in plain scalars

The rules that take a plain scalar for an integer or a number, in terms of what is written
(`isInteger_iff`, `isNumber_iff`), and the values that such scalars are read as: the number that the
digits spell (`integerValue_shortest`, `integerValue_hexadecimal`), or the double nearest to it
(`floatValue_decimal`).
-/

namespace Componentry.Yaml

open Numeral (Sign Decimal digit numeral)

/-! ## Recognising numbers -/

theorem exists_sign (cs : List Char) : ∃ sign : Sign, cs = sign.chars ++ withoutSign cs := by
  unfold withoutSign
  split
  · exact ⟨.plus, rfl⟩
  · exact ⟨.minus, rfl⟩
  · exact ⟨.none, rfl⟩

theorem withoutSign_chars (sign : Sign) {c : Char} {cs : List Char} (h : c ≠ '+' ∧ c ≠ '-') :
    withoutSign (sign.chars ++ c :: cs) = c :: cs := by
  cases sign with
  | none =>
    show withoutSign (c :: cs) = c :: cs
    unfold withoutSign
    split
    · next heq => exact absurd (List.cons.inj heq).1 h.1
    · next heq => exact absurd (List.cons.inj heq).1 h.2
    · rfl
  | plus => rfl
  | minus => rfl

theorem isDigits_iff {cs : List Char} :
    isDigits cs = true ↔ cs ≠ [] ∧ ∀ c ∈ cs, digit c < 10 := by
  simp [isDigits, Numeral.isDigit_iff]

theorem isExponent_iff {cs : List Char} :
    isExponent cs = true ↔ cs = [] ∨ ∃ x : Numeral.Exponent, cs = x.chars := by
  constructor
  · intro h
    cases cs with
    | nil => exact .inl rfl
    | cons c cs =>
      obtain ⟨sign, hsign⟩ := exists_sign cs
      have hparts : (c = 'e' ∨ c = 'E') ∧ isDigits (withoutSign cs) = true := by
        simpa [isExponent] using h
      obtain ⟨hne, hlt⟩ := isDigits_iff.mp hparts.2
      refine .inr ⟨⟨c, sign, withoutSign cs, hparts.1, hne, hlt⟩, ?_⟩
      exact congrArg (c :: ·) hsign
  · rintro (rfl | ⟨x, rfl⟩)
    · rfl
    · obtain ⟨c, cs, hcons⟩ := List.exists_cons_of_ne_nil x.digits_ne
      have hc : digit c < 10 := x.digits_lt c (hcons ▸ List.mem_cons_self)
      have hsign : withoutSign (x.sign.chars ++ x.digits) = x.digits := by
        rw [hcons]
        refine withoutSign_chars x.sign ⟨?_, ?_⟩ <;> rintro rfl <;> exact absurd hc (by decide)
      have hletter : (x.letter == 'e' || x.letter == 'E') = true := by
        simpa using x.letter_eq
      rw [Numeral.Exponent.chars, isExponent, hsign, hletter]
      exact isDigits_iff.mpr ⟨x.digits_ne, x.digits_lt⟩

/-- An exponent at the end of a number, or none. -/
theorem exists_exponent {cs : List Char} (h : isExponent cs = true) :
    ∃ e : Option Numeral.Exponent, cs = e.elim [] Numeral.Exponent.chars := by
  rcases isExponent_iff.mp h with rfl | ⟨x, rfl⟩
  · exact ⟨none, rfl⟩
  · exact ⟨some x, rfl⟩

theorem isExponent_exponentChars (x : Decimal) : isExponent x.exponentChars = true := by
  unfold Decimal.exponentChars
  refine isExponent_iff.mpr ?_
  cases x.exponent with
  | none => exact .inl rfl
  | some e => exact .inr ⟨e, rfl⟩

theorem digit_of_mem_takeWhile {c : Char} {cs : List Char} (h : c ∈ cs.takeWhile Char.isDigit) :
    digit c < 10 :=
  Numeral.isDigit_iff.mp (List.mem_takeWhile_imp h)

theorem exists_decimal {cs : List Char} (h : isDecimal cs = true) : ∃ x : Decimal, cs = x.chars := by
  have hcs := List.takeWhile_append_dropWhile (p := Char.isDigit) (l := cs)
  unfold isDecimal at h
  dsimp only at h
  split at h
  · next rest hrest =>
    have hsplit := List.takeWhile_append_dropWhile (p := Char.isDigit) (l := rest)
    obtain ⟨hdigits, hexponent⟩ := Bool.and_eq_true_iff.mp h
    obtain ⟨e, he⟩ := exists_exponent hexponent
    refine ⟨⟨cs.takeWhile Char.isDigit, some (rest.takeWhile Char.isDigit), e,
      fun c hc => digit_of_mem_takeWhile hc, fun c hc => digit_of_mem_takeWhile hc, ?_⟩, ?_⟩
    · intro hnil
      obtain ⟨hwhole, hfraction⟩ := List.append_eq_nil_iff.mp hnil
      rw [hwhole, show rest.takeWhile Char.isDigit = [] from hfraction] at hdigits
      cases hdigits
    · show cs = cs.takeWhile Char.isDigit ++
        '.' :: (rest.takeWhile Char.isDigit ++ e.elim [] Numeral.Exponent.chars)
      rw [← he, hsplit, ← hrest, hcs]
  · obtain ⟨hdigits, hexponent⟩ := Bool.and_eq_true_iff.mp h
    obtain ⟨e, he⟩ := exists_exponent hexponent
    refine ⟨⟨cs.takeWhile Char.isDigit, none, e, fun c hc => digit_of_mem_takeWhile hc, by simp, ?_⟩, ?_⟩
    · intro hnil
      rw [(List.append_eq_nil_iff.mp hnil).1] at hdigits
      cases hdigits
    · show cs = cs.takeWhile Char.isDigit ++ e.elim [] Numeral.Exponent.chars
      rw [← he, hcs]

theorem isDecimal_chars (x : Decimal) : isDecimal x.chars = true := by
  have hne := x.digits_ne
  unfold isDecimal
  rw [x.span_chars.1, x.span_chars.2]
  unfold Decimal.tail
  cases hf : x.fraction with
  | none =>
    rw [hf] at hne
    dsimp only
    split
    · next hdot => exact absurd (congrArg List.head? hdot) x.head?_exponentChars_ne
    · rw [isExponent_exponentChars]
      simpa using hne
  | some ds =>
    have hdigits : ∀ c ∈ ds, digit c < 10 := by simpa [hf] using x.fraction_lt
    have hspan := Numeral.span_digits hdigits x.not_digit_exponentChars
    rw [hf] at hne
    dsimp only
    split
    · next hdot =>
      obtain rfl := (List.cons.inj hdot).2
      rw [hspan.1, hspan.2, isExponent_exponentChars]
      have hor : x.whole ≠ [] ∨ ds ≠ [] := by
        simpa [or_iff_not_imp_left] using hne
      simpa using hor
    · next hdot => exact absurd rfl (hdot _)

theorem withoutSign_decimal (sign : Sign) (x : Decimal) :
    withoutSign (sign.chars ++ x.chars) = x.chars := by
  obtain ⟨c, cs, hcons, hc⟩ := x.exists_cons
  rw [hcons]
  refine withoutSign_chars sign ⟨?_, ?_⟩ <;> rintro rfl <;> revert hc <;> decide

theorem isOneOf_iff {words : List String} {cs : List Char} :
    isOneOf words cs = true ↔ ∃ word ∈ words, cs = word.toList := by
  simp only [isOneOf, List.any_eq_true, beq_iff_eq, @eq_comm _ cs]

/-- Digits in base ten without a zero in front of others. -/
structure IsShortest (ds : List Char) : Prop where
  ne : ds ≠ []
  lt : ∀ c ∈ ds, digit c < 10
  zero : ds.head? = some '0' → ds.length = 1

theorem withoutSign_digits (sign : Sign) {ds : List Char} (hne : ds ≠ [])
    (h : ∀ c ∈ ds, digit c < 10) : withoutSign (sign.chars ++ ds) = ds := by
  obtain ⟨c, cs, rfl⟩ := List.exists_cons_of_ne_nil hne
  have hc := h c List.mem_cons_self
  refine withoutSign_chars sign ⟨?_, ?_⟩ <;> rintro rfl <;> exact absurd hc (by decide)

theorem isInteger_iff {cs : List Char} : isInteger cs = true ↔
    (∃ (sign : Sign) (ds : List Char), cs = sign.chars ++ ds ∧ IsShortest ds) ∨
      ∃ ds, cs = '0' :: 'x' :: ds ∧ ds ≠ [] ∧ ∀ c ∈ ds, digit c < 16 := by
  unfold isInteger
  rw [Bool.or_eq_true]
  refine or_congr ?_ ?_
  · have hshortest : ∀ ds : List Char,
        (isDigits ds && (ds.head? != some '0' || ds.length == 1)) = true ↔ IsShortest ds := by
      intro ds
      rw [Bool.and_eq_true, isDigits_iff, Bool.or_eq_true, bne_iff_ne, beq_iff_eq,
        ← imp_iff_not_or]
      exact ⟨fun h => ⟨h.1.1, h.1.2, h.2⟩, fun h => ⟨⟨h.ne, h.lt⟩, h.zero⟩⟩
    dsimp only
    rw [hshortest]
    constructor
    · intro h
      obtain ⟨sign, hsign⟩ := exists_sign cs
      exact ⟨sign, _, hsign, h⟩
    · rintro ⟨sign, ds, rfl, h⟩
      rwa [withoutSign_digits sign h.ne h.lt]
  · split
    · next ds => simp [Numeral.isSome_hexValue?_iff]
    · next hx =>
      refine ⟨fun h => Bool.noConfusion h, ?_⟩
      rintro ⟨ds, hcs, -⟩
      exact absurd hcs (hx ds)

theorem isNumber_iff {cs : List Char} : isNumber cs = true ↔
    (∃ (sign : Sign) (x : Decimal), cs = sign.chars ++ x.chars) ∨
      (∃ sign : Sign, ∃ word ∈ [".inf", ".Inf", ".INF"], cs = sign.chars ++ word.toList) ∨
      ∃ word ∈ [".nan", ".NaN", ".NAN"], cs = word.toList := by
  unfold isNumber
  rw [Bool.or_eq_true, Bool.or_eq_true, isOneOf_iff, isOneOf_iff, or_assoc]
  refine or_congr ?_ (or_congr ?_ Iff.rfl)
  · constructor
    · intro h
      obtain ⟨sign, hsign⟩ := exists_sign cs
      obtain ⟨x, hx⟩ := exists_decimal h
      exact ⟨sign, x, hx ▸ hsign⟩
    · rintro ⟨sign, x, rfl⟩
      rw [withoutSign_decimal]
      exact isDecimal_chars x
  · constructor
    · rintro ⟨word, hword, hcs⟩
      obtain ⟨sign, hsign⟩ := exists_sign cs
      exact ⟨sign, word, hword, hcs ▸ hsign⟩
    · rintro ⟨sign, word, hword, rfl⟩
      refine ⟨word, hword, ?_⟩
      revert word
      cases sign <;> decide

/-! ## Reading numbers -/

theorem takeSign_chars (sign : Sign) {c : Char} {cs : List Char} (h : c ≠ '+' ∧ c ≠ '-') :
    takeSign (sign.chars ++ c :: cs) = .ok (sign.isNegative, c :: cs) := by
  cases sign with
  | none => simp [takeSign, Sign.chars, Sign.isNegative, h]
  | plus => rfl
  | minus => rfl

theorem withoutUnderscores_eq {cs : List Char} (h : '_' ∉ cs) : withoutUnderscores cs = cs := by
  refine List.filter_eq_self.mpr fun c hc => ?_
  rw [bne_iff_ne]
  rintro rfl
  exact h hc

theorem IsShortest.contains_colon {ds : List Char} (h : IsShortest ds) : ds.contains ':' = false := by
  rw [← Bool.not_eq_true, List.contains_iff_mem]
  exact fun hc => absurd (h.lt _ hc) (by decide)

theorem unsignedInteger_shortest {ds : List Char} (h : IsShortest ds) :
    unsignedInteger ds = Numeral.integer 10 ds := by
  have hzero := h.zero
  unfold unsignedInteger
  split
  · decide
  · simp at hzero
  · simp at hzero
  · next tail hone _ _ =>
    obtain rfl : tail = [] := List.length_eq_zero_iff.mp (Nat.succ.inj (hzero rfl))
    exact absurd rfl (hone)
  · exact absurd rfl h.ne
  · rw [h.contains_colon]
    rfl

/-- Integers have no underscores, and their sign stands in front. -/
theorem takeSign_shortest (sign : Sign) {ds : List Char} (h : IsShortest ds) :
    takeSign (withoutUnderscores (sign.chars ++ ds)) = .ok (sign.isNegative, ds) := by
  have hunderscore : '_' ∉ sign.chars ++ ds := by
    intro hc
    rcases List.mem_append.mp hc with hc | hc
    · cases sign <;> revert hc <;> decide
    · exact absurd (h.lt _ hc) (by decide)
  rw [withoutUnderscores_eq hunderscore]
  obtain ⟨c, cs, rfl⟩ := List.exists_cons_of_ne_nil h.ne
  have hc := h.lt c List.mem_cons_self
  refine takeSign_chars sign ⟨?_, ?_⟩ <;> rintro rfl <;> exact absurd hc (by decide)

theorem takeSign_hexadecimal {ds : List Char} (h : ∀ c ∈ ds, digit c < 16) :
    takeSign (withoutUnderscores ('0' :: 'x' :: ds)) = .ok (false, '0' :: 'x' :: ds) := by
  have hunderscore : '_' ∉ '0' :: 'x' :: ds := by
    simp only [List.mem_cons, not_or]
    exact ⟨by decide, by decide, fun hc => absurd (h _ hc) (by decide)⟩
  rw [withoutUnderscores_eq hunderscore]
  rfl

theorem integerValue_shortest {text : String} (sign : Sign) {ds : List Char}
    (ht : text.toList = sign.chars ++ ds) (h : IsShortest ds) : integerValue text =
      if Text.digitLimit < ds.length then .error (.tooManyDigits ds.length)
      else .ok (sign.apply (numeral 10 ds)) := by
  rw [integerValue, ht, takeSign_shortest sign h]
  dsimp only [bind, Except.bind]
  rw [unsignedInteger_shortest h, Numeral.integer_digits (by decide) h.ne h.lt]
  by_cases hlong : Text.digitLimit < ds.length
  · rw [if_pos hlong, if_pos ⟨rfl, hlong⟩]
  · rw [if_neg hlong, if_neg fun hbad => hlong hbad.2]
    rfl

theorem integerValue_hexadecimal {text : String} {ds : List Char}
    (ht : text.toList = '0' :: 'x' :: ds) (hne : ds ≠ []) (h : ∀ c ∈ ds, digit c < 16) :
    integerValue text = .ok (numeral 16 ds) := by
  rw [integerValue, ht, takeSign_hexadecimal h]
  dsimp only [bind, Except.bind]
  rw [unsignedInteger, Numeral.integer_digits le_rfl hne h, if_neg fun hbad => absurd hbad.1 (by decide)]
  rfl

theorem mem_digits_iff {c : Char} : c ∈ "0123456789".toList ↔ digit c < 10 :=
  Numeral.mem_iff_digit_lt (by decide) (by decide) (by decide +kernel)

theorem mem_of_digit {c : Char} (h : digit c < 10) : c ∈ "0123456789".toList :=
  mem_digits_iff.mpr h

/-- The characters of numbers. -/
def numericChars : List Char :=
  "0123456789".toList ++ ".eE+-".toList

theorem lowerChar_numeric :
    numericChars.all (fun c => Text.lowerChar c == [c.toLower] && c != 'Σ') = true := by
  decide +kernel

/-- The lower case of a number is that of its characters. -/
theorem lower_numeric {cs : List Char} (h : ∀ c ∈ cs, c ∈ numericChars) :
    Text.lower (String.ofList cs) = String.ofList (cs.map Char.toLower) := by
  have hfrom : ∀ (cs before : List Char), (∀ c ∈ cs, c ∈ numericChars) →
      Text.lowerFrom before cs = cs.map Char.toLower := by
    intro cs
    induction cs with
    | nil => intro before _; rfl
    | cons c cs ih =>
      intro before hcs
      have hc := List.all_eq_true.mp lowerChar_numeric c (hcs c List.mem_cons_self)
      simp only [Bool.and_eq_true, beq_iff_eq, bne_iff_ne] at hc
      rw [Text.lowerFrom, if_neg (by simpa using hc.2), hc.1,
        ih (c :: before) fun d hd => hcs d (List.mem_cons_of_mem c hd)]
      rfl
  rw [Text.lower, String.toList_ofList, hfrom cs [] h]

theorem numeric_of_mem_chars (sign : Sign) (x : Decimal) :
    ∀ c ∈ sign.chars ++ x.chars, c ∈ numericChars := by
  have hall : sign.chars.all numericChars.contains = true := by
    cases sign <;> decide
  have hsign : ∀ c ∈ sign.chars, c ∈ numericChars := fun c hc =>
    List.contains_iff_mem.mp (List.all_eq_true.mp hall c hc)
  intro c hc
  rcases List.mem_append.mp hc with hc | hc
  · exact hsign c hc
  · rcases x.mem_chars hc with h | rfl | rfl | rfl | rfl | rfl
    · exact List.mem_append_left _ (mem_of_digit h)
    all_goals decide

/-- **A number with a sign is read as the nearest double.** -/
theorem floatValue_decimal {text : String} (sign : Sign) (x : Decimal)
    (ht : text.toList = sign.chars ++ x.chars) {d : Double} (hs : d.isNegative = sign.isNegative)
    (hd : d.Nearest x.magnitude) (own : Nat) : floatValue own text = .ok d := by
  have hnumeric := numeric_of_mem_chars sign x
  have hunderscore : '_' ∉ sign.chars ++ x.chars := fun hc => absurd (hnumeric _ hc) (by decide)
  have hlower : (Text.lower (String.ofList (sign.chars ++ x.chars))).toList =
      sign.chars ++ x.lowered.chars := by
    rw [lower_numeric hnumeric, String.toList_ofList, List.map_append, sign.map_toLower_chars,
      x.chars_lowered]
  have hsign : takeSign (sign.chars ++ x.lowered.chars) = .ok (sign.isNegative, x.lowered.chars) := by
    obtain ⟨c, cs, hcons, hc⟩ := x.lowered.exists_cons
    rw [hcons]
    refine takeSign_chars sign ⟨?_, ?_⟩ <;> rintro rfl <;> revert hc <;> decide
  -- names and colons have characters that numbers have not
  have hother : ∀ {c : Char}, c ∉ numericChars → c ∉ x.lowered.chars := fun hc hmem =>
    hc (numeric_of_mem_chars .none x.lowered _ hmem)
  have hnan : (x.lowered.chars == ".nan".toList) = false := by
    rw [beq_eq_false_iff_ne]
    intro heq
    exact hother (c := 'n') (by decide) (heq ▸ by decide)
  have hinf : (x.lowered.chars == ".inf".toList) = false := by
    rw [beq_eq_false_iff_ne]
    intro heq
    exact hother (c := 'n') (by decide) (heq ▸ by decide)
  have hcolon : x.lowered.chars.contains ':' = false := by
    rw [← Bool.not_eq_true, List.contains_iff_mem]
    exact hother (by decide)
  have hread : unsignedFloat x.lowered.chars = .ok (Double.ofDecimal false x.mantissa x.scale) := by
    rw [unsignedFloat, hinf, hcolon, if_neg Bool.false_ne_true, if_neg Bool.false_ne_true,
      x.lowered.float_chars, x.scale_lowered]
    rfl
  have hnearest := Double.nearest_ofDecimal false x.mantissa x.scale
  have hpositive := Double.isNegative_ofDecimal false x.mantissa x.scale
  have hmagnitude : 0 ≤ x.magnitude := by
    unfold Decimal.magnitude
    positivity
  rw [floatValue, ht, withoutUnderscores_eq hunderscore, hlower, hsign]
  dsimp only [bind, Except.bind]
  rw [hnan, hread]
  dsimp only [bind, Except.bind]
  rw [hnearest.isNaN]
  cases hneg : sign.isNegative with
  | false =>
    have hequal : Double.ofDecimal false x.mantissa x.scale = d :=
      Double.Nearest.unique hmagnitude hnearest hd (by rw [hpositive, hs, hneg])
    exact congrArg Except.ok hequal
  | true =>
    have hequal : (Double.ofDecimal false x.mantissa x.scale).negate = d :=
      Double.Nearest.unique hmagnitude (hnearest.negate hpositive) hd
        (by rw [Double.isNegative_negate hpositive, hs, hneg])
    exact congrArg Except.ok hequal

theorem floatValue_infinity {text : String} (sign : Sign) {word : String}
    (hw : word ∈ [".inf", ".Inf", ".INF"]) (ht : text.toList = sign.chars ++ word.toList) (own : Nat) :
    floatValue own text = .ok (.infinity sign.isNegative) := by
  have hlower : Text.lower (String.ofList (withoutUnderscores (sign.chars ++ word.toList))) =
      String.ofList (sign.chars ++ ".inf".toList) := by
    clear ht
    revert word
    cases sign <;> decide +kernel
  have hsign : takeSign (sign.chars ++ ".inf".toList) = .ok (sign.isNegative, ".inf".toList) :=
    takeSign_chars sign (by decide)
  have hread : unsignedFloat ".inf".toList = .ok (.infinity false) := rfl
  rw [floatValue, ht, hlower, String.toList_ofList, hsign]
  dsimp only [bind, Except.bind]
  rw [hread]
  dsimp only [bind, Except.bind]
  rw [Double.isNaN_infinity]
  cases sign.isNegative <;> rfl

theorem floatValue_nan {text : String} {word : String} (hw : word ∈ [".nan", ".NaN", ".NAN"])
    (ht : text.toList = word.toList) (own : Nat) : floatValue own text = .ok .nan := by
  have hlower : Text.lower (String.ofList (withoutUnderscores word.toList)) = ".nan" := by
    clear ht
    revert word
    decide +kernel
  rw [floatValue, ht, hlower]
  rfl

end Componentry.Yaml

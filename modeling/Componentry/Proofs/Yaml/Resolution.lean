import Componentry.Proofs.Yaml.CoreSchema
import Componentry.Proofs.Yaml.Pattern

/-!
# The tags of plain scalars

A plain scalar has its tag by the rules that are filed under its first character.

**Main statement.** All rules together give the same tag.  The six words are truth values, what the
expression for integers matches is an integer, and what the one for numbers matches besides is a
number; an integer is read in base ten or sixteen, although the reader of integers knows other
spellings (`resolution_agrees`).
-/

namespace Componentry.Yaml

open Numeral (Sign Decimal digit numeral)

/-! ## All rules -/

/-- The tag of a text by all rules in their order, wherever they are filed. -/
def tagByAll (text : String) : String :=
  (rules.find? (·.accepts text.toList)).elim textTag Rule.tag

variable {text : String}

/-- **The rules under the first character are all that matter.** -/
theorem implicitTag_eq_tagByAll (hlast : text.toList.getLast? ≠ some '\n') :
    implicitTag text = tagByAll text := by
  have hfiled : ∀ r ∈ rules, (r.starts.contains text.toList.head? && r.accepts text.toList) =
      r.accepts text.toList :=
    fun r hr => (filed_and_accepts hlast hr).trans (accepts_eq hlast r).symm
  unfold implicitTag tagByAll
  dsimp only
  rw [List.find?_congr hfiled]
  cases rules.find? (·.accepts text.toList) with
  | none => rfl
  | some r => rfl

/-- A tag other than that of texts comes from its own rule. -/
theorem matches?_of_implicitTag (hlast : text.toList.getLast? ≠ some '\n') {r : Rule} (hr : r ∈ rules)
    (h : implicitTag text = r.tag) : r.matches? text.toList = true := by
  have hdistinct : (rules.map Rule.tag).Nodup := by decide
  have htext : textTag ∉ rules.map Rule.tag := by decide
  rw [implicitTag_eq_tagByAll hlast, tagByAll] at h
  cases hfind : rules.find? (·.accepts text.toList) with
  | none =>
    rw [hfind] at h
    exact absurd (List.mem_map.mpr ⟨r, hr, h.symm⟩) htext
  | some r' =>
    rw [hfind] at h
    obtain rfl := List.inj_on_of_nodup_map hdistinct (List.mem_of_find?_eq_some hfind) hr h
    have haccepts : r'.accepts text.toList = true := by simpa using List.find?_some hfind
    exact (accepts_eq hlast r').symm.trans haccepts

/-! ## Numbers and timestamps -/

/-- What follows the first digits of a number is no dash. -/
theorem head?_tail_ne_dash (x : Decimal) : x.tail.head? ≠ some '-' := by
  unfold Decimal.tail
  cases x.fraction with
  | some ds => simp
  | none =>
    unfold Decimal.exponentChars
    cases x.exponent with
    | none => simp
    | some e =>
      intro h
      rcases e.letter_eq with hletter | hletter <;> simp [Numeral.Exponent.chars, hletter] at h

theorem isImplicit_of_isNumber {cs : List Char} (h : isNumber cs = true) :
    Timestamp.isImplicit cs = false := by
  rw [Bool.eq_false_iff]
  intro ht
  have hdash := (dash_of_isImplicit ht).2
  obtain ⟨⟨c, hc, hdigit⟩, -⟩ := digit_of_isImplicit ht
  -- a timestamp has no sign in front
  have hsigned : ∀ (sign : Sign) {ds : List Char}, cs = sign.chars ++ ds → cs = ds := by
    rintro (_ | _ | _) ds rfl
    · rfl
    · cases hc
      exact absurd hdigit (by decide)
    · cases hc
      exact absurd hdigit (by decide)
  have hword : ∀ words : List String, (words.all fun w => w.toList.head? == some '.') = true →
      ∀ w ∈ words, cs ≠ w.toList := by
    rintro words hall w hw rfl
    rw [beq_iff_eq.mp (List.all_eq_true.mp hall w hw)] at hc
    cases hc
    exact absurd hdigit (by decide)
  rcases isNumber_iff.mp h with ⟨sign, x, hx⟩ | ⟨sign, w, hw, hx⟩ | ⟨w, hw, hx⟩
  · rw [hsigned sign hx, x.span_chars.2] at hdash
    exact head?_tail_ne_dash x hdash
  · exact hword _ (by decide) w hw (hsigned sign hx)
  · exact hword _ (by decide) w hw hx

theorem isImplicit_of_isInteger {cs : List Char} (h : isInteger cs = true) :
    Timestamp.isImplicit cs = false := by
  rcases isInteger_iff.mp h with ⟨sign, ds, rfl, hds⟩ | ⟨ds, rfl, -, hlt⟩
  · exact isImplicit_digits sign hds.lt
  · rw [Bool.eq_false_iff]
    intro ht
    have hmem := (digit_of_isImplicit ht).2
    simp only [List.mem_cons] at hmem
    rcases hmem with hmem | hmem | hmem
    · cases hmem
    · cases hmem
    · exact absurd (hlt _ hmem) (by decide)

/-! ## The tags of numbers -/

theorem implicitTag_of_number (hlast : text.toList.getLast? ≠ some '\n')
    (h : isInteger text.toList = true ∨ isNumber text.toList = true) :
    implicitTag text = if isInteger text.toList then commonTag "int" else commonTag "float" := by
  have hwords : ∀ words : List String,
      (words.all fun w => !isInteger w.toList && !isNumber w.toList) = true →
        isOneOf words text.toList = false := by
    intro words hall
    rw [Bool.eq_false_iff]
    intro hone
    have hnot := List.all_eq_true.mp hall text (isOneOf_iff_mem.mp hone)
    simp only [Bool.and_eq_true, Bool.not_eq_true'] at hnot
    rcases h with h | h
    · exact Bool.eq_false_iff.mp hnot.1 h
    · exact Bool.eq_false_iff.mp hnot.2 h
  have htimestamp : Timestamp.isImplicit text.toList = false :=
    h.elim isImplicit_of_isInteger isImplicit_of_isNumber
  rw [implicitTag_eq hlast, hwords ["<<"] (by decide),
    hwords ["~", "null", "Null", "NULL", ""] (by decide), htimestamp, hwords ["="] (by decide),
    hwords ["!", "&", "*"] (by decide),
    hwords ["true", "True", "TRUE", "false", "False", "FALSE"] (by decide)]
  cases hi : isInteger text.toList with
  | true => rfl
  | false =>
    rw [h.resolve_left (Bool.eq_false_iff.mp hi)]
    rfl

theorem implicitTag_eq_bool_iff (hlast : text.toList.getLast? ≠ some '\n') :
    implicitTag text = commonTag "bool" ↔
      text ∈ ["true", "True", "TRUE", "false", "False", "FALSE"] := by
  constructor
  · intro h
    exact isOneOf_iff_mem.mp (matches?_of_implicitTag hlast (r := rules[5]) (List.getElem_mem _) h)
  · clear hlast
    revert text
    decide +kernel

theorem implicitTag_eq_int_iff (hlast : text.toList.getLast? ≠ some '\n') :
    implicitTag text = commonTag "int" ↔ isInteger text.toList = true := by
  constructor
  · exact matches?_of_implicitTag hlast (r := rules[6]) (List.getElem_mem _)
  · intro h
    rw [implicitTag_of_number hlast (.inl h), if_pos h]

theorem implicitTag_eq_float_iff (hlast : text.toList.getLast? ≠ some '\n') :
    implicitTag text = commonTag "float" ↔
      isNumber text.toList = true ∧ ¬ isInteger text.toList = true := by
  constructor
  · intro h
    refine ⟨matches?_of_implicitTag hlast (r := rules[7]) (List.getElem_mem _) h, fun hi => ?_⟩
    rw [(implicitTag_eq_int_iff hlast).mpr hi] at h
    exact absurd h (by decide)
  · rintro ⟨hnumber, hi⟩
    rw [implicitTag_of_number hlast (.inr hnumber), if_neg hi]

/-! ## The spellings of integers -/

/-- How an integer without a sign is spelled, by what the text starts with and whether there are colons
in it. -/
inductive Spelling where
  | nothing
  | zero
  | binary
  | hexadecimal
  | octal
  | sexagesimal
  | decimal
  deriving DecidableEq, Repr

/-- The spelling of a text, of which the first that applies counts. -/
def spelling (cs : List Char) : Spelling :=
  match cs with
  | [] => .nothing
  | ['0'] => .zero
  | '0' :: 'b' :: _ => .binary
  | '0' :: 'x' :: _ => .hexadecimal
  | '0' :: _ => .octal
  | _ => if cs.contains ':' then .sexagesimal else .decimal

/-- The integer that a text spells in a given way. -/
def Spelling.read (cs : List Char) : Spelling → Except Fault Int
  | .nothing => .error .noCharacter
  | .zero => .ok 0
  | .binary => Numeral.integer 2 (cs.drop 2)
  | .hexadecimal => Numeral.integer 16 (cs.drop 2)
  | .octal => Numeral.integer 8 cs
  | .sexagesimal => do return Yaml.sexagesimal (← (Text.splitOn ':' cs).mapM (Numeral.integer 10))
  | .decimal => Numeral.integer 10 cs

theorem unsignedInteger_eq_read (cs : List Char) : unsignedInteger cs = (spelling cs).read cs := by
  unfold spelling
  split
  · rfl
  · rfl
  · rfl
  · rfl
  · rw [unsignedInteger]
    · rfl
    all_goals assumption
  · rw [unsignedInteger]
    · split <;> rfl
    all_goals assumption

theorem spelling_shortest {ds : List Char} (h : IsShortest ds) :
    spelling ds = .zero ∨ spelling ds = .decimal := by
  have hzero := h.zero
  unfold spelling
  split
  · exact absurd rfl h.ne
  · exact .inl rfl
  · simp at hzero
  · simp at hzero
  · next tail hne _ _ =>
    obtain rfl : tail = [] := List.length_eq_zero_iff.mp (Nat.succ.inj (hzero rfl))
    exact absurd rfl hne
  · rw [h.contains_colon]
    exact .inr rfl

/-- The integer behind a sign, by the spelling of what follows it. -/
theorem integerValue_eq_read {negative : Bool} {cs : List Char}
    (h : takeSign (withoutUnderscores text.toList) = .ok (negative, cs)) :
    integerValue text = (do
      let n ← (spelling cs).read cs
      return if negative then -n else n) := by
  rw [integerValue, h, ← unsignedInteger_eq_read]
  rfl

/-- **The tags of numbers and truth values.** Take a text that does not end in a line feed.

* The rules filed under its first character give it the tag that all rules together give it.
* It is a truth value just if it is one of the six words, an integer just if it is matched by the
  expression for integers, and a number just if it is matched by the one for numbers and not by that for
  integers.
* An integer is read as what its digits spell in base ten, if they are not too many, or in base sixteen.
  It is never taken for a spelling in base two, eight or sixty. -/
theorem resolution_agrees (hlast : text.toList.getLast? ≠ some '\n') :
    implicitTag text = tagByAll text ∧
      (implicitTag text = commonTag "bool" ↔
        text ∈ ["true", "True", "TRUE", "false", "False", "FALSE"]) ∧
      (implicitTag text = commonTag "int" ↔ text.toList ∈ Pattern.integer.matches') ∧
      (implicitTag text = commonTag "float" ↔
        text.toList ∈ Pattern.number.matches' ∧ text.toList ∉ Pattern.integer.matches') ∧
      (implicitTag text = commonTag "int" → ∃ negative cs,
        takeSign (withoutUnderscores text.toList) = .ok (negative, cs) ∧
        spelling cs ∉ [.binary, .octal, .sexagesimal] ∧
        integerValue text = (do
          let n ← (spelling cs).read cs
          return if negative then -n else n) ∧
        ((∃ (sign : Sign) (ds : List Char), text.toList = sign.chars ++ ds ∧ (∀ c ∈ ds, digit c < 10) ∧
            (ds.length ≤ Text.digitLimit → integerValue text = .ok (sign.apply (numeral 10 ds)))) ∨
          ∃ ds, text.toList = '0' :: 'x' :: ds ∧ (∀ c ∈ ds, digit c < 16) ∧
            integerValue text = .ok (numeral 16 ds))) := by
  refine ⟨implicitTag_eq_tagByAll hlast, implicitTag_eq_bool_iff hlast, ?_, ?_, ?_⟩
  · rw [implicitTag_eq_int_iff hlast, Pattern.isInteger_iff_mem]
  · rw [implicitTag_eq_float_iff hlast, Pattern.isNumber_iff_mem, Pattern.isInteger_iff_mem]
  · rw [implicitTag_eq_int_iff hlast, isInteger_iff]
    rintro (⟨sign, ds, ht, hds⟩ | ⟨ds, ht, hne, hlt⟩)
    · have hsign : takeSign (withoutUnderscores text.toList) = .ok (sign.isNegative, ds) :=
        ht ▸ takeSign_shortest sign hds
      refine ⟨sign.isNegative, ds, hsign, ?_, integerValue_eq_read hsign, .inl ⟨sign, ds, ht, hds.lt, ?_⟩⟩
      · rcases spelling_shortest hds with hs | hs <;> rw [hs] <;> decide
      · intro hshort
        rw [integerValue_shortest sign ht hds, if_neg (Nat.not_lt.mpr hshort)]
    · have hsign : takeSign (withoutUnderscores text.toList) = .ok (false, '0' :: 'x' :: ds) :=
        ht ▸ takeSign_hexadecimal hlt
      refine ⟨false, _, hsign, ?_, integerValue_eq_read hsign,
        .inr ⟨ds, ht, hlt, integerValue_hexadecimal ht hne hlt⟩⟩
      show Spelling.hexadecimal ∉ _
      decide

theorem resolution_agrees_negative_zero :
    "-0".toList.getLast? ≠ some '\n' ∧ implicitTag "-0" = commonTag "int" ∧
      "-0".toList ∈ Pattern.integer.matches' ∧ ∃ negative cs,
        takeSign (withoutUnderscores "-0".toList) = .ok (negative, cs) ∧
        spelling cs ∉ [.binary, .octal, .sexagesimal] := by
  have hlast : "-0".toList.getLast? ≠ some '\n' := by decide
  have htag : implicitTag "-0" = commonTag "int" := by decide +kernel
  obtain ⟨-, -, hint, -, hread⟩ := resolution_agrees hlast
  obtain ⟨negative, cs, hsign, hs, -⟩ := hread htag
  exact ⟨hlast, htag, hint.mp htag, negative, cs, hsign, hs⟩

example : implicitTag "-017" = commonTag "float" ∧ implicitTag "0b101" = textTag := by
  decide +kernel

end Componentry.Yaml

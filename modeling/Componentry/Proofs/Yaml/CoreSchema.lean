import Componentry.Proofs.Yaml.Number
import Mathlib.Data.List.Find

/-!
# The core schema

The core schema says what a plain scalar without a tag stands for: null, a truth value, an integer or
a number if it looks like one (`CoreRule`), and itself otherwise (`CoreValue`).

The tags of plain scalars come from rules that differ from it.  Digits with a zero in front are a
number with a fraction, octal digits are a text, and there are timestamps (`Departs`); a few texts
have no value at all (`Refused`).

**Main statements.** A plain scalar has a value just when it is not refused (`exists_resolves_iff`).
The value is that of the core schema just when the scalar does not depart (`coreValue_iff`), and if it
does, then it is the one of `DepartsTo` (`departsTo_of_departs`).
-/

namespace Componentry.Yaml

open Numeral (Sign Decimal digit numeral)

/-! ## The core schema -/

/-- What the core schema makes of a text that it does not leave a text. -/
inductive CoreRule : List Char → Scalar → Prop
  | null {word : String} (h : word ∈ ["~", "null", "Null", "NULL", ""]) : CoreRule word.toList .null
  | true {word : String} (h : word ∈ ["true", "True", "TRUE"]) : CoreRule word.toList (.bool true)
  | false {word : String} (h : word ∈ ["false", "False", "FALSE"]) :
    CoreRule word.toList (.bool false)
  | decimal (sign : Sign) {ds : List Char} (hne : ds ≠ []) (h : ∀ c ∈ ds, digit c < 10) :
    CoreRule (sign.chars ++ ds) (.int (sign.apply (numeral 10 ds)))
  | octal {ds : List Char} (hne : ds ≠ []) (h : ∀ c ∈ ds, digit c < 8) :
    CoreRule ('0' :: 'o' :: ds) (.int (numeral 8 ds))
  | hexadecimal {ds : List Char} (hne : ds ≠ []) (h : ∀ c ∈ ds, digit c < 16) :
    CoreRule ('0' :: 'x' :: ds) (.int (numeral 16 ds))
  /-- A number with a point or an exponent stands for the nearest double. -/
  | float (sign : Sign) (x : Decimal) (h : x.fraction.isSome ∨ x.exponent.isSome) {d : Double}
    (hs : d.isNegative = sign.isNegative) (hd : d.Nearest x.magnitude) :
    CoreRule (sign.chars ++ x.chars) (.float d)
  | infinity (sign : Sign) {word : String} (h : word ∈ [".inf", ".Inf", ".INF"]) :
    CoreRule (sign.chars ++ word.toList) (.float (.infinity sign.isNegative))
  | nan {word : String} (h : word ∈ [".nan", ".NaN", ".NAN"]) : CoreRule word.toList (.float .nan)

/-- What the core schema makes of a text. -/
def CoreValue (text : String) (s : Scalar) : Prop :=
  CoreRule text.toList s ∨ ((∀ s', ¬ CoreRule text.toList s') ∧ s = .text text)

/-- The texts that are read, but not as the core schema says. -/
inductive Departs : List Char → Prop
  /-- Digits with a zero in front of them are read as a number with a fraction. -/
  | zeros (sign : Sign) {ds : List Char} (hne : ds ≠ []) (h : ∀ c ∈ ds, digit c < 10) :
    Departs (sign.chars ++ '0' :: ds)
  /-- Octal digits stay a text. -/
  | octal {ds : List Char} (hne : ds ≠ []) (h : ∀ c ∈ ds, digit c < 8) : Departs ('0' :: 'o' :: ds)
  /-- A timestamp becomes a date or a moment. -/
  | timestamp {cs : List Char} (h : Timestamp.isImplicit cs = true) : Departs cs

/-- What is read of a text that departs. -/
inductive DepartsTo (text : String) : Scalar → Prop
  | zeros (sign : Sign) {ds : List Char} (ht : text.toList = sign.chars ++ '0' :: ds)
    (h : ∀ c ∈ ds, digit c < 10) {d : Double} (hs : d.isNegative = sign.isNegative)
    (hd : d.Nearest (numeral 10 ('0' :: ds))) : DepartsTo text (.float d)
  | octal {ds : List Char} (ht : text.toList = '0' :: 'o' :: ds) : DepartsTo text (.text text)
  | timestamp {s : Scalar} (h : Timestamp.isImplicit text.toList = true)
    (hs : timestampValue text = .ok s) : DepartsTo text s

/-- The texts that are not read at all. -/
inductive Refused (text : String) : Prop
  /-- The key that merges mappings. -/
  | merge (h : text = "<<")
  /-- The key that stands for a mapping as a whole. -/
  | value (h : text = "=")
  | digits (sign : Sign) {ds : List Char} (ht : text.toList = sign.chars ++ ds) (h : IsShortest ds)
    (hl : Text.digitLimit < ds.length)
  /-- A timestamp that is no date or time of the calendar. -/
  | timestamp (h : Timestamp.isImplicit text.toList = true) (hv : ∀ s, timestampValue text ≠ .ok s)

/-- The text of a plain scalar: it does not end in a line feed, and it is not one of the indicators
that never start one. -/
structure IsPlainText (text : String) : Prop where
  getLast? : text.toList.getLast? ≠ some '\n'
  not_indicator : text ∉ ["!", "&", "*"]

/-- The form reads the text as the scalar; `own` numbers those that are not numbers. -/
def Form.Reads (form : Form) (own : Nat) (text : String) (s : Scalar) : Prop :=
  match form with
  | .null => s = .null
  | .bool => ∃ b, truthValue text = .ok b ∧ s = .bool b
  | .int => ∃ n, integerValue text = .ok n ∧ s = .int n
  | .float => ∃ x, floatValue own text = .ok x ∧ s = .float x
  | .timestamp => timestampValue text = .ok s
  | .text => s = .text text
  | .code typing => s = .code ⟨if typing then .typing else .raw, text⟩
  | .octets => ∃ b, octetsValue text = .ok b ∧ s = .bytes b
  | _ => False

/-- A plain scalar without a tag stands for the scalar. -/
def Resolves (own : Nat) (text : String) (s : Scalar) : Prop :=
  ∃ form, Form.ofTag? (implicitTag text) = some form ∧ form.Reads own text s

/-! ## Tags -/

theorem eq_of_after? {c : Char} {cs rest : List Char} (h : Timestamp.after? c cs = some rest) :
    cs = c :: rest := by
  cases cs with
  | nil => cases h
  | cons d cs =>
    rw [Timestamp.after?] at h
    split at h
    · next hc => rw [← Option.some.inj h, beq_iff_eq.mp hc]
    · cases h

/-- A timestamp starts with digits, and a dash follows them. -/
theorem dash_of_isImplicit {cs : List Char} (h : Timestamp.isImplicit cs = true) :
    cs.takeWhile Char.isDigit ≠ [] ∧ (cs.dropWhile Char.isDigit).head? = some '-' := by
  have hcs := List.takeWhile_append_dropWhile (p := Char.isDigit) (l := cs)
  unfold Timestamp.isImplicit at h
  split at h
  · next t ht =>
    unfold Timestamp.parse? at ht
    obtain ⟨⟨year, rest⟩, hyear, ht⟩ := Option.bind_eq_some_iff.mp ht
    obtain ⟨rest', hdash, -⟩ := Option.bind_eq_some_iff.mp ht
    obtain rfl : rest = '-' :: rest' := eq_of_after? hdash
    unfold Timestamp.digits? at hyear
    dsimp only at hyear
    split at hyear
    · cases hyear
    · next hlength =>
      have hrest := congrArg Prod.snd (Option.some.inj hyear)
      dsimp only at hrest
      rw [List.length_take] at hlength hrest
      have hfour : 4 ≤ (cs.takeWhile Char.isDigit).length := by omega
      have hdrop : (cs.takeWhile Char.isDigit).drop 4 ++ cs.dropWhile Char.isDigit = '-' :: rest' := by
        rw [← List.drop_append_of_le_length hfour, hcs, ← hrest, Nat.min_eq_left hfour]
      refine ⟨List.ne_nil_of_length_pos (by omega), ?_⟩
      -- with more than four digits the dash would be one of them
      cases hmore : (cs.takeWhile Char.isDigit).drop 4 with
      | nil =>
        rw [hmore] at hdrop
        exact congrArg List.head? hdrop
      | cons c more =>
        rw [hmore] at hdrop
        obtain rfl : c = '-' := (List.cons.inj hdrop).1
        have hmem : '-' ∈ cs.takeWhile Char.isDigit :=
          List.mem_of_mem_drop (hmore ▸ List.mem_cons_self)
        exact absurd (digit_of_mem_takeWhile hmem) (by decide)
  · cases h

/-- A timestamp starts with a digit, and it has a dash in it. -/
theorem digit_of_isImplicit {cs : List Char} (h : Timestamp.isImplicit cs = true) :
    (∃ c ∈ cs.head?, digit c < 10) ∧ '-' ∈ cs := by
  have hcs := List.takeWhile_append_dropWhile (p := Char.isDigit) (l := cs)
  obtain ⟨hne, hdash⟩ := dash_of_isImplicit h
  refine ⟨?_, (List.dropWhile_sublist _).subset (List.mem_of_mem_head? hdash)⟩
  obtain ⟨c, run, hrun⟩ := List.exists_cons_of_ne_nil hne
  rw [hrun] at hcs
  exact ⟨c, hcs ▸ rfl, digit_of_mem_takeWhile (hrun ▸ List.mem_cons_self)⟩

/-- The first character of a number. -/
theorem exists_start_of_isNumber {cs : List Char} (h : isNumber cs = true) :
    ∃ c ∈ cs.head?, c ∈ "-+.0123456789".toList := by
  have hsigned : ∀ (sign : Sign) {c : Char} {ds : List Char}, (digit c < 10 ∨ c = '.') →
      ∃ d ∈ (sign.chars ++ c :: ds).head?, d ∈ "-+.0123456789".toList := by
    intro sign c ds hc
    cases sign with
    | none =>
      refine ⟨c, rfl, ?_⟩
      rcases hc with hc | rfl
      · exact List.mem_append_right "-+.".toList (mem_of_digit hc)
      · decide
    | plus => exact ⟨'+', rfl, by decide⟩
    | minus => exact ⟨'-', rfl, by decide⟩
  rcases isNumber_iff.mp h with ⟨sign, x, rfl⟩ | ⟨sign, word, hword, rfl⟩ | ⟨word, hword, rfl⟩
  · obtain ⟨c, ds, hcons, hc⟩ := x.exists_cons
    rw [hcons]
    exact hsigned sign hc
  · have hdot : ∃ ds, word.toList = '.' :: ds := by
      simp only [List.mem_cons, List.not_mem_nil, or_false] at hword
      rcases hword with rfl | rfl | rfl <;> exact ⟨_, rfl⟩
    obtain ⟨ds, hds⟩ := hdot
    rw [hds]
    exact hsigned sign (.inr rfl)
  · refine ⟨'.', ?_, by decide⟩
    revert word
    decide

/-- The first character of an integer. -/
theorem exists_start_of_isInteger {cs : List Char} (h : isInteger cs = true) :
    ∃ c ∈ cs.head?, c ∈ "-+0123456789".toList := by
  rcases isInteger_iff.mp h with ⟨sign, ds, rfl, hds⟩ | ⟨ds, rfl, -⟩
  · obtain ⟨c, ds, rfl⟩ := List.exists_cons_of_ne_nil hds.ne
    cases sign with
    | none => exact ⟨c, rfl, List.mem_append_right "-+".toList (mem_of_digit (hds.lt c List.mem_cons_self))⟩
    | plus => exact ⟨'+', rfl, by decide⟩
    | minus => exact ⟨'-', rfl, by decide⟩
  · exact ⟨'0', rfl, by decide⟩

/-- The texts of a rule start with the characters that it is filed under. -/
theorem starts_of_matches? {r : Rule} (hr : r ∈ rules) {cs : List Char} (h : r.matches? cs = true) :
    r.starts.contains cs.head? = true := by
  have hword : ∀ {words : List String} {starts : List (Option Char)}, isOneOf words cs = true →
      (words.all fun word => starts.contains word.toList.head?) = true →
      starts.contains cs.head? = true := by
    intro words starts hone hall
    obtain ⟨word, hmem, rfl⟩ := isOneOf_iff.mp hone
    exact List.all_eq_true.mp hall word hmem
  have hstart : ∀ {text : String}, (∃ c ∈ cs.head?, c ∈ text.toList) →
      (startsOf text).contains cs.head? = true := by
    rintro text ⟨c, hc, hmem⟩
    rw [Option.mem_def.mp hc, List.contains_iff_mem]
    exact List.mem_map_of_mem hmem
  simp only [rules, List.mem_cons, List.not_mem_nil, or_false] at hr
  rcases hr with rfl | rfl | rfl | rfl | rfl | rfl | rfl | rfl
  · exact hword h (by decide)
  · exact hword h (by decide)
  · obtain ⟨c, hc, hdigit⟩ := (digit_of_isImplicit h).1
    exact hstart ⟨c, hc, mem_of_digit hdigit⟩
  · exact hword h (by decide)
  · exact hword h (by decide)
  · exact hword h (by decide)
  · exact hstart (exists_start_of_isInteger h)
  · exact hstart (exists_start_of_isNumber h)

/-- Without a line feed at the end a rule knows just its own texts. -/
theorem accepts_eq {text : String} (h : text.toList.getLast? ≠ some '\n') (r : Rule) :
    r.accepts text.toList = r.matches? text.toList := by
  have hlast : (text.toList.getLast? == some '\n') = false := beq_eq_false_iff_ne.mpr h
  rw [Rule.accepts, hlast, Bool.false_and, Bool.or_false]

/-- A rule that knows a text is filed under its first character. -/
theorem filed_and_accepts {text : String} (h : text.toList.getLast? ≠ some '\n') {r : Rule}
    (hr : r ∈ rules) :
    (r.starts.contains text.toList.head? && r.accepts text.toList) = r.matches? text.toList := by
  rw [accepts_eq h]
  cases hm : r.matches? text.toList with
  | true => rw [starts_of_matches? hr hm, Bool.and_self]
  | false => exact Bool.and_false _

/-- The tag of a plain scalar that does not end in a line feed, by the rules in their order. -/
theorem implicitTag_eq {text : String} (h : text.toList.getLast? ≠ some '\n') : implicitTag text =
    if isOneOf ["<<"] text.toList then mergeTag
    else if isOneOf ["~", "null", "Null", "NULL", ""] text.toList then commonTag "null"
    else if Timestamp.isImplicit text.toList then commonTag "timestamp"
    else if isOneOf ["="] text.toList then valueTag
    else if isOneOf ["!", "&", "*"] text.toList then commonTag "yaml"
    else if isOneOf ["true", "True", "TRUE", "false", "False", "FALSE"] text.toList then
      commonTag "bool"
    else if isInteger text.toList then commonTag "int"
    else if isNumber text.toList then commonTag "float"
    else textTag := by
  unfold implicitTag
  dsimp only
  rw [List.find?_congr fun r hr => filed_and_accepts h hr]
  simp only [rules, List.find?_cons]
  cases isOneOf ["<<"] text.toList
  case true => rfl
  cases isOneOf ["~", "null", "Null", "NULL", ""] text.toList
  case true => rfl
  cases Timestamp.isImplicit text.toList
  case true => rfl
  cases isOneOf ["="] text.toList
  case true => rfl
  cases isOneOf ["!", "&", "*"] text.toList
  case true => rfl
  cases isOneOf ["true", "True", "TRUE", "false", "False", "FALSE"] text.toList
  case true => rfl
  cases isInteger text.toList
  case true => rfl
  cases isNumber text.toList <;> rfl

/-! ## Resolution -/

section Resolution

variable {text : String} {own : Nat} {s : Scalar}

theorem resolves_iff {tag : String} {form : Form} (ht : implicitTag text = tag)
    (hf : Form.ofTag? tag = some form) : Resolves own text s ↔ form.Reads own text s := by
  constructor
  · rintro ⟨form', hf', hr⟩
    rw [ht, hf] at hf'
    cases hf'
    exact hr
  · exact fun hr => ⟨form, ht ▸ hf, hr⟩

theorem not_resolves {tag : String} (ht : implicitTag text = tag) (hf : Form.ofTag? tag = none) :
    ¬ Resolves own text s := by
  rintro ⟨form, hf', -⟩
  rw [ht, hf] at hf'
  cases hf'

theorem isOneOf_iff_mem {words : List String} : isOneOf words text.toList = true ↔ text ∈ words := by
  rw [isOneOf_iff]
  constructor
  · rintro ⟨word, hword, heq⟩
    exact String.toList_inj.mp heq ▸ hword
  · exact fun h => ⟨text, h, rfl⟩

/-- The rule by which a plain text has its tag. -/
inductive RuledBy (text : String) : String → Prop
  | merge (h : text = "<<") : RuledBy text mergeTag
  | null (h : text ∈ ["~", "null", "Null", "NULL", ""]) : RuledBy text (commonTag "null")
  | timestamp (h : Timestamp.isImplicit text.toList = true) : RuledBy text (commonTag "timestamp")
  | value (h : text = "=") : RuledBy text valueTag
  | bool (h : text ∈ ["true", "True", "TRUE", "false", "False", "FALSE"]) :
    RuledBy text (commonTag "bool")
  | int (ht : Timestamp.isImplicit text.toList = false) (h : isInteger text.toList = true) :
    RuledBy text (commonTag "int")
  | float (ht : Timestamp.isImplicit text.toList = false) (hi : isInteger text.toList = false)
    (h : isNumber text.toList = true) : RuledBy text (commonTag "float")
  | none (hm : text ≠ "<<") (hn : text ∉ ["~", "null", "Null", "NULL", ""])
    (ht : Timestamp.isImplicit text.toList = false) (hv : text ≠ "=")
    (hb : text ∉ ["true", "True", "TRUE", "false", "False", "FALSE"])
    (hi : isInteger text.toList = false) (hf : isNumber text.toList = false) : RuledBy text textTag

theorem ruledBy_implicitTag (h : IsPlainText text) : RuledBy text (implicitTag text) := by
  rw [implicitTag_eq h.getLast?]
  simp only [isOneOf_iff_mem, List.mem_singleton]
  split_ifs with hm hn ht hv hy hb hi hf
  · exact .merge hm
  · exact .null hn
  · exact .timestamp ht
  · exact .value hv
  · exact absurd hy h.not_indicator
  · exact .bool hb
  · exact .int (Bool.eq_false_iff.mpr ht) hi
  · exact .float (Bool.eq_false_iff.mpr ht) (Bool.eq_false_iff.mpr hi) hf
  · exact .none hm hn (Bool.eq_false_iff.mpr ht) hv hb (Bool.eq_false_iff.mpr hi)
      (Bool.eq_false_iff.mpr hf)

/-! ### Texts without a value -/

theorem truthValue_word (h : text ∈ ["true", "True", "TRUE", "false", "False", "FALSE"]) :
    truthValue text = .ok (decide (text ∈ ["true", "True", "TRUE"])) := by
  revert text
  decide +kernel

/-- Digits behind a sign are no timestamp. -/
theorem isImplicit_digits (sign : Sign) {ds : List Char} (h : ∀ c ∈ ds, digit c < 10) :
    Timestamp.isImplicit (sign.chars ++ ds) = false := by
  rw [Bool.eq_false_iff]
  intro ht
  obtain ⟨⟨c, hc, hdigit⟩, hdash⟩ := digit_of_isImplicit ht
  cases sign with
  | none => exact absurd (h _ hdash) (by decide)
  | plus =>
    obtain rfl : '+' = c := Option.some.inj hc
    exact absurd hdigit (by decide)
  | minus =>
    obtain rfl : '-' = c := Option.some.inj hc
    exact absurd hdigit (by decide)

theorem not_refused (hm : text ≠ "<<") (hv : text ≠ "=") (hi : isInteger text.toList = false)
    (ht : Timestamp.isImplicit text.toList = false) : ¬ Refused text := by
  intro hr
  cases hr with
  | merge h => exact hm h
  | value h => exact hv h
  | digits sign hds h =>
    rw [isInteger_iff.mpr (.inl ⟨sign, _, hds, h⟩)] at hi
    cases hi
  | timestamp h =>
    rw [h] at ht
    cases ht

/-- Words that no rule for numbers knows are not refused. -/
theorem not_refused_of_mem {words : List String} (h : text ∈ words)
    (hall : (words.all fun word => word != "<<" && word != "=" && !isInteger word.toList &&
      !Timestamp.isImplicit word.toList) = true) : ¬ Refused text := by
  have hword := List.all_eq_true.mp hall text h
  simp only [Bool.and_eq_true, bne_iff_ne, Bool.not_eq_true'] at hword
  exact not_refused hword.1.1.1 hword.1.1.2 hword.1.2 hword.2

theorem exists_resolves_iff_timestamp (h : Timestamp.isImplicit text.toList = true)
    (htag : implicitTag text = commonTag "timestamp") :
    (∃ s, Resolves own text s) ↔ ¬ Refused text := by
  have hresolves : ∀ s, Resolves own text s ↔ timestampValue text = .ok s := fun s =>
    resolves_iff htag rfl
  constructor
  · rintro ⟨s, hs⟩ hr
    cases hr with
    | merge hm => exact absurd (hm ▸ h) (by decide)
    | value hv => exact absurd (hv ▸ h) (by decide)
    | digits sign ht hds =>
      rw [ht, isImplicit_digits sign hds.lt] at h
      cases h
    | timestamp _ hv => exact hv s ((hresolves s).mp hs)
  · intro hr
    by_contra hs
    exact hr (.timestamp h fun s hv => hs ⟨s, (hresolves s).mpr hv⟩)

theorem exists_resolves_iff_int (h : isInteger text.toList = true)
    (htag : implicitTag text = commonTag "int") (ht : Timestamp.isImplicit text.toList = false) :
    (∃ s, Resolves own text s) ↔ ¬ Refused text := by
  have hresolves : ∀ s, Resolves own text s ↔ ∃ n, integerValue text = .ok n ∧ s = .int n := fun s =>
    resolves_iff htag rfl
  constructor
  · rintro ⟨s, hs⟩ hr
    obtain ⟨n, hn, -⟩ := (hresolves s).mp hs
    cases hr with
    | merge hm => exact absurd (hm ▸ h) (by decide)
    | value hv => exact absurd (hv ▸ h) (by decide)
    | digits sign hds hshort hl =>
      rw [integerValue_shortest sign hds hshort, if_pos hl] at hn
      cases hn
    | timestamp hbad =>
      rw [hbad] at ht
      cases ht
  · intro hr
    rcases isInteger_iff.mp h with ⟨sign, ds, hds, hshort⟩ | ⟨ds, hds, hne, hlt⟩
    · have hvalue := integerValue_shortest sign hds hshort
      rw [if_neg fun hl => hr (.digits sign hds hshort hl)] at hvalue
      exact ⟨_, (hresolves _).mpr ⟨_, hvalue, rfl⟩⟩
    · exact ⟨_, (hresolves _).mpr ⟨_, integerValue_hexadecimal hds hne hlt, rfl⟩⟩

/-- Every number by the rule for numbers has a value. -/
theorem exists_floatValue (h : isNumber text.toList = true) (own : Nat) :
    ∃ d, floatValue own text = .ok d := by
  rcases isNumber_iff.mp h with ⟨sign, x, hx⟩ | ⟨sign, word, hword, hx⟩ | ⟨word, hword, hx⟩
  · exact ⟨_, floatValue_decimal sign x hx (Double.isNegative_ofDecimal sign.isNegative _ _)
      (Double.nearest_ofDecimal sign.isNegative x.mantissa x.scale) own⟩
  · exact ⟨_, floatValue_infinity sign hword hx own⟩
  · exact ⟨_, floatValue_nan hword hx own⟩

/-- **A plain scalar without a tag has a value unless it is one of the texts that are refused.** -/
theorem exists_resolves_iff (h : IsPlainText text) :
    (∃ s, Resolves own text s) ↔ ¬ Refused text := by
  have hrule := ruledBy_implicitTag h
  generalize htag : implicitTag text = tag at hrule
  cases hrule with
  | merge h =>
    refine ⟨?_, fun hr => absurd (.merge h) hr⟩
    rintro ⟨s, hs⟩
    exact absurd hs (not_resolves htag (by decide))
  | null h =>
    refine ⟨fun _ => not_refused_of_mem h (by decide), fun _ => ⟨.null, ?_⟩⟩
    exact (resolves_iff htag rfl).mpr rfl
  | timestamp h => exact exists_resolves_iff_timestamp h htag
  | value h =>
    refine ⟨?_, fun hr => absurd (.value h) hr⟩
    rintro ⟨s, hs⟩
    exact absurd hs (not_resolves htag (by decide))
  | bool h =>
    refine ⟨fun _ => not_refused_of_mem h (by decide), fun _ => ?_⟩
    exact ⟨_, (resolves_iff htag rfl).mpr ⟨_, truthValue_word h, rfl⟩⟩
  | int ht h => exact exists_resolves_iff_int h htag ht
  | float ht hi h =>
    obtain ⟨d, hd⟩ := exists_floatValue h own
    have hne : ∀ {word : String}, isNumber word.toList = false → text ≠ word := by
      rintro word hword rfl
      rw [h] at hword
      cases hword
    refine ⟨fun _ => not_refused (hne (by decide)) (hne (by decide)) hi ht, fun _ => ?_⟩
    exact ⟨_, (resolves_iff htag rfl).mpr ⟨d, hd, rfl⟩⟩
  | none hm hn ht hv hb hi hf =>
    exact ⟨fun _ => not_refused hm hv hi ht, fun _ => ⟨.text text, (resolves_iff htag rfl).mpr rfl⟩⟩

/-! ### Values -/

theorem isInteger_zeros (sign : Sign) {ds : List Char} (hne : ds ≠ []) (h : ∀ c ∈ ds, digit c < 10) :
    isInteger (sign.chars ++ '0' :: ds) = false := by
  have hdigits : ∀ c ∈ '0' :: ds, digit c < 10 := by
    simp only [List.forall_mem_cons]
    exact ⟨by decide, h⟩
  rw [Bool.eq_false_iff]
  intro hi
  rcases isInteger_iff.mp hi with ⟨sign', ds', heq, hshort⟩ | ⟨ds', heq, -⟩
  · have hsame := congrArg withoutSign heq
    rw [withoutSign_digits sign (List.cons_ne_nil _ _) hdigits,
      withoutSign_digits sign' hshort.ne hshort.lt] at hsame
    subst hsame
    have hone := hshort.zero rfl
    exact hne (List.length_eq_zero_iff.mp (Nat.succ.inj hone))
  · have hsame := congrArg withoutSign heq
    rw [withoutSign_digits sign (List.cons_ne_nil _ _) hdigits] at hsame
    obtain ⟨-, htail⟩ := List.cons.inj (show '0' :: ds = '0' :: 'x' :: ds' from hsame)
    exact absurd (h 'x' (htail ▸ List.mem_cons_self)) (by decide)

theorem isNumber_digits (sign : Sign) {ds : List Char} (hne : ds ≠ []) (h : ∀ c ∈ ds, digit c < 10) :
    isNumber (sign.chars ++ ds) = true := by
  refine isNumber_iff.mpr (.inl ⟨sign, ⟨ds, none, none, h, by simp, by simpa using hne⟩, ?_⟩)
  simp [Decimal.chars, Decimal.tail, Decimal.exponentChars]

theorem isNumber_octal (ds : List Char) : isNumber ('0' :: 'o' :: ds) = false := by
  have hmem : 'o' ∈ '0' :: 'o' :: ds := by simp
  rw [Bool.eq_false_iff]
  intro h
  rcases isNumber_iff.mp h with ⟨sign, x, heq⟩ | ⟨sign, word, hword, heq⟩ | ⟨word, hword, heq⟩
  · exact absurd (numeric_of_mem_chars sign x _ (heq ▸ hmem)) (by decide)
  · have hnot : ∀ word ∈ [".inf", ".Inf", ".INF"], 'o' ∉ sign.chars ++ word.toList := by
      cases sign <;> decide
    exact hnot word hword (heq ▸ hmem)
  · have hnot : ∀ word ∈ [".nan", ".NaN", ".NAN"], 'o' ∉ word.toList := by
      decide
    exact hnot word hword (heq ▸ hmem)

theorem isInteger_octal (ds : List Char) : isInteger ('0' :: 'o' :: ds) = false := by
  rw [Bool.eq_false_iff]
  intro h
  rcases isInteger_iff.mp h with ⟨sign, ds', heq, hshort⟩ | ⟨ds', heq, -⟩
  · have hnumber := isNumber_digits sign hshort.ne hshort.lt
    rw [← heq, isNumber_octal] at hnumber
    cases hnumber
  · exact absurd (List.cons.inj (List.cons.inj heq).2).1 (by decide)

/-- A number with a point or an exponent is more than digits behind a sign. -/
theorem fractional_ne_digits {sign sign' : Sign} {x : Decimal} {ds : List Char}
    (h : x.fraction.isSome ∨ x.exponent.isSome) (hne : ds ≠ []) (hds : ∀ c ∈ ds, digit c < 10) :
    sign.chars ++ x.chars ≠ sign'.chars ++ ds := by
  intro heq
  have hsame := congrArg withoutSign heq
  rw [withoutSign_decimal, withoutSign_digits sign' hne hds] at hsame
  have htail : x.tail = [] := by
    have hspan := x.span_chars.2
    rw [hsame, List.dropWhile_eq_nil_iff.mpr fun c hc => Numeral.isDigit_iff.mpr (hds c hc)] at hspan
    exact hspan.symm
  unfold Decimal.tail at htail
  cases hf : x.fraction with
  | none =>
    obtain ⟨e, he⟩ := Option.isSome_iff_exists.mp (h.resolve_left (by simp [hf]))
    rw [hf] at htail
    simp [Decimal.exponentChars, he, Numeral.Exponent.chars] at htail
  | some f =>
    rw [hf] at htail
    cases htail

/-- Words that no rule for numbers knows do not depart. -/
theorem not_departs_of_mem {words : List String} (h : text ∈ words)
    (hall : (words.all fun word => !isNumber word.toList && !Timestamp.isImplicit word.toList &&
      word.toList.take 2 != ['0', 'o']) = true) : ¬ Departs text.toList := by
  have hword := List.all_eq_true.mp hall text h
  simp only [Bool.and_eq_true, bne_iff_ne, Bool.not_eq_true'] at hword
  intro hd
  generalize text.toList = cs at hd hword
  cases hd with
  | zeros sign hne hds =>
    have hnumber := isNumber_digits sign (List.cons_ne_nil '0' _)
      (List.forall_mem_cons.mpr ⟨by decide, hds⟩)
    rw [hword.1.1] at hnumber
    cases hnumber
  | octal => exact hword.2 rfl
  | timestamp ht =>
    rw [hword.1.2] at ht
    cases ht

theorem CoreRule.ne_text {cs : List Char} (h : CoreRule cs s) : s ≠ .text text := by
  cases h <;> exact fun heq => Scalar.noConfusion heq

theorem CoreRule.ne_date {cs : List Char} (h : CoreRule cs s) :
    (∀ d, s ≠ .date d) ∧ ∀ m, s ≠ .moment m := by
  cases h <;> exact ⟨fun _ heq => Scalar.noConfusion heq, fun _ heq => Scalar.noConfusion heq⟩

theorem exists_of_timestampValue (h : timestampValue text = .ok s) :
    (∃ d, s = .date d) ∨ ∃ m, s = .moment m := by
  unfold timestampValue at h
  split at h
  · cases h
  · next t _ =>
    cases hv : t.value with
    | error f =>
      rw [hv] at h
      cases h
    | ok v =>
      rw [hv] at h
      rcases v with ⟨d, _ | ⟨time, offset⟩⟩
      · exact .inl ⟨d, (Except.ok.inj h).symm⟩
      · exact .inr ⟨_, (Except.ok.inj h).symm⟩

theorem coreValue_iff_timestamp (h : Timestamp.isImplicit text.toList = true)
    (hs : timestampValue text = .ok s) : CoreValue text s ↔ ¬ Departs text.toList := by
  refine iff_of_false (fun hc => ?_) (not_not_intro (.timestamp h))
  rcases exists_of_timestampValue hs with ⟨d, rfl⟩ | ⟨m, rfl⟩ <;> rcases hc with hc | ⟨-, heq⟩
  · exact hc.ne_date.1 d rfl
  · cases heq
  · exact hc.ne_date.2 m rfl
  · cases heq

theorem coreRule_truth (h : text ∈ ["true", "True", "TRUE", "false", "False", "FALSE"]) :
    CoreRule text.toList (.bool (decide (text ∈ ["true", "True", "TRUE"]))) := by
  by_cases htrue : text ∈ ["true", "True", "TRUE"]
  · rw [decide_eq_true htrue]
    exact .true htrue
  · rw [decide_eq_false htrue]
    refine .false ?_
    have hsplit := List.mem_append.mp
      (show text ∈ ["true", "True", "TRUE"] ++ ["false", "False", "FALSE"] from h)
    exact hsplit.resolve_left htrue

theorem not_departs_of_isInteger {cs : List Char} (ht : Timestamp.isImplicit cs = false)
    (h : isInteger cs = true) : ¬ Departs cs := by
  intro hd
  cases hd with
  | zeros sign hne hds =>
    rw [isInteger_zeros sign hne hds] at h
    cases h
  | octal =>
    rw [isInteger_octal] at h
    cases h
  | timestamp hbad =>
    rw [ht] at hbad
    cases hbad

theorem coreValue_of_int {n : Int} (h : isInteger text.toList = true) (hn : integerValue text = .ok n) :
    CoreValue text (.int n) := by
  refine .inl ?_
  rcases isInteger_iff.mp h with ⟨sign, ds, hds, hshort⟩ | ⟨ds, hds, hne, hlt⟩
  · rw [integerValue_shortest sign hds hshort] at hn
    split at hn
    · cases hn
    · cases hn
      rw [hds]
      exact .decimal sign hshort.ne hshort.lt
  · rw [integerValue_hexadecimal hds hne hlt] at hn
    cases hn
    rw [hds]
    exact .hexadecimal hne hlt

theorem dot_not_mem_digits (sign : Sign) {ds : List Char} (h : ∀ c ∈ ds, digit c < 10) :
    '.' ∉ sign.chars ++ ds := by
  intro hmem
  rcases List.mem_append.mp hmem with hmem | hmem
  · cases sign <;> revert hmem <;> decide
  · exact absurd (h _ hmem) (by decide)

/-- A text with a dot is not made of digits, and none of those that depart but a timestamp. -/
theorem not_departs_of_dot {cs : List Char} (ht : Timestamp.isImplicit cs = false)
    (h : isNumber cs = true) (hdot : '.' ∈ cs) : ¬ Departs cs := by
  intro hd
  cases hd with
  | zeros sign hne hds =>
    exact dot_not_mem_digits sign (List.forall_mem_cons.mpr ⟨by decide, hds⟩) hdot
  | octal =>
    rw [isNumber_octal] at h
    cases h
  | timestamp hbad =>
    rw [ht] at hbad
    cases hbad

/-- Digits that are no integer by the rule for integers have a zero in front. -/
theorem exists_zeros {sign : Sign} {ds : List Char} (hne : ds ≠ []) (h : ∀ c ∈ ds, digit c < 10)
    (hi : isInteger (sign.chars ++ ds) = false) : ∃ ds', ds = '0' :: ds' ∧ ds' ≠ [] := by
  have hnot : ¬ IsShortest ds := fun hshort => by
    rw [isInteger_iff.mpr (.inl ⟨sign, ds, rfl, hshort⟩)] at hi
    cases hi
  obtain ⟨c, cs, rfl⟩ := List.exists_cons_of_ne_nil hne
  by_cases hc : c = '0'
  · subst hc
    refine ⟨cs, rfl, ?_⟩
    rintro rfl
    exact hnot ⟨hne, h, fun _ => rfl⟩
  · exact absurd ⟨hne, h, fun hhead => absurd (Option.some.inj hhead) hc⟩ hnot

theorem dot_mem_infinity : ∀ word ∈ [".inf", ".Inf", ".INF"], '.' ∈ word.toList := by
  decide

theorem dot_mem_nan : ∀ word ∈ [".nan", ".NaN", ".NAN"], '.' ∈ word.toList := by
  decide

theorem not_coreRule_float {sign : Sign} {ds cs : List Char} (hne : ds ≠ [])
    (h : ∀ c ∈ ds, digit c < 10) (hcs : cs = sign.chars ++ ds) {d : Double} :
    ¬ CoreRule cs (.float d) := by
  intro hc
  have hdot := dot_not_mem_digits sign h
  rw [← hcs] at hdot
  cases hc with
  | float sign' x hx => exact fractional_ne_digits hx hne h hcs
  | infinity sign' hword => exact hdot (List.mem_append_right _ (dot_mem_infinity _ hword))
  | nan hword => exact hdot (dot_mem_nan _ hword)

/-- A number that no rule takes for an integer departs if it is made of digits alone. -/
theorem coreValue_iff_decimal (ht : Timestamp.isImplicit text.toList = false)
    (hi : isInteger text.toList = false) {sign : Sign} {x : Decimal}
    (hx : text.toList = sign.chars ++ x.chars) {d : Double} (hd : floatValue own text = .ok d) :
    CoreValue text (.float d) ↔ ¬ Departs text.toList := by
  have hsign := Double.isNegative_ofDecimal sign.isNegative x.mantissa x.scale
  have hnearest := Double.nearest_ofDecimal sign.isNegative x.mantissa x.scale
  rw [floatValue_decimal sign x hx hsign hnearest own] at hd
  obtain rfl := Except.ok.inj hd
  by_cases hfractional : x.fraction.isSome ∨ x.exponent.isSome
  · refine iff_of_true (.inl (hx ▸ .float sign x hfractional hsign hnearest)) fun hdeparts => ?_
    generalize text.toList = cs at *
    cases hdeparts with
    | zeros sign' hne hds =>
      exact fractional_ne_digits hfractional (List.cons_ne_nil '0' _)
        (List.forall_mem_cons.mpr ⟨by decide, hds⟩) hx.symm
    | octal =>
      have hnumber := isNumber_iff.mpr (.inl ⟨sign, x, hx⟩)
      rw [isNumber_octal] at hnumber
      cases hnumber
    | timestamp hbad =>
      rw [ht] at hbad
      cases hbad
  · simp only [not_or, Option.not_isSome_iff_eq_none] at hfractional
    have hchars : x.chars = x.whole := by
      simp [Decimal.chars, Decimal.tail, Decimal.exponentChars, hfractional]
    have hne : x.whole ≠ [] := by
      simpa [hfractional] using x.digits_ne
    rw [hchars] at hx
    refine iff_of_false (fun hc => ?_) (not_not_intro ?_)
    · rcases hc with hc | ⟨-, heq⟩
      · exact not_coreRule_float hne x.whole_lt hx hc
      · cases heq
    · obtain ⟨ds, hds, hne'⟩ := exists_zeros hne x.whole_lt (hx ▸ hi)
      rw [hx, hds]
      exact .zeros sign hne' fun c hc => x.whole_lt c (hds ▸ List.mem_cons_of_mem '0' hc)

theorem coreValue_iff_float (ht : Timestamp.isImplicit text.toList = false)
    (hi : isInteger text.toList = false) (h : isNumber text.toList = true) {d : Double}
    (hd : floatValue own text = .ok d) : CoreValue text (.float d) ↔ ¬ Departs text.toList := by
  rcases isNumber_iff.mp h with ⟨sign, x, hx⟩ | ⟨sign, word, hword, hx⟩ | ⟨word, hword, hx⟩
  · exact coreValue_iff_decimal ht hi hx hd
  · rw [floatValue_infinity sign hword hx own] at hd
    obtain rfl := Except.ok.inj hd
    refine iff_of_true (.inl (hx ▸ .infinity sign hword)) (not_departs_of_dot ht h ?_)
    exact hx ▸ List.mem_append_right _ (dot_mem_infinity word hword)
  · rw [floatValue_nan hword hx own] at hd
    obtain rfl := Except.ok.inj hd
    exact iff_of_true (.inl (hx ▸ .nan hword)) (not_departs_of_dot ht h (hx ▸ dot_mem_nan word hword))

theorem coreValue_iff_text (hn : text ∉ ["~", "null", "Null", "NULL", ""])
    (ht : Timestamp.isImplicit text.toList = false)
    (hb : text ∉ ["true", "True", "TRUE", "false", "False", "FALSE"])
    (hi : isInteger text.toList = false) (hf : isNumber text.toList = false) :
    CoreValue text (.text text) ↔ ¬ Departs text.toList := by
  constructor
  · rintro (hc | ⟨hno, -⟩) hd
    · exact hc.ne_text rfl
    · generalize text.toList = cs at *
      cases hd with
      | zeros sign hne hds =>
        exact hno _ (.decimal sign (List.cons_ne_nil '0' _) (List.forall_mem_cons.mpr ⟨by decide, hds⟩))
      | octal hne hds => exact hno _ (.octal hne hds)
      | timestamp hbad =>
        rw [ht] at hbad
        cases hbad
  · intro hd
    refine .inr ⟨fun s' hc => ?_, rfl⟩
    generalize hcs : text.toList = cs at *
    cases hc with
    | null hword => exact hn (String.toList_inj.mp hcs ▸ hword)
    | true hword =>
      exact hb (List.mem_append_left ["false", "False", "FALSE"] (String.toList_inj.mp hcs ▸ hword))
    | false hword =>
      exact hb (List.mem_append_right ["true", "True", "TRUE"] (String.toList_inj.mp hcs ▸ hword))
    | decimal sign hne hds =>
      rw [isNumber_digits sign hne hds] at hf
      cases hf
    | octal hne hds => exact hd (.octal hne hds)
    | hexadecimal hne hds =>
      rw [isInteger_iff.mpr (.inr ⟨_, rfl, hne, hds⟩)] at hi
      cases hi
    | float sign x =>
      rw [isNumber_iff.mpr (.inl ⟨sign, x, rfl⟩)] at hf
      cases hf
    | infinity sign hword =>
      rw [isNumber_iff.mpr (.inr (.inl ⟨sign, _, hword, rfl⟩))] at hf
      cases hf
    | nan hword =>
      rw [isNumber_iff.mpr (.inr (.inr ⟨_, hword, rfl⟩))] at hf
      cases hf

/-- **A plain scalar without a tag that is read has the value of the core schema unless it is one of
the texts that depart.** -/
theorem coreValue_iff (h : IsPlainText text) (hs : Resolves own text s) :
    CoreValue text s ↔ ¬ Departs text.toList := by
  have hrule := ruledBy_implicitTag h
  generalize htag : implicitTag text = tag at hrule
  cases hrule with
  | merge h => exact absurd hs (not_resolves htag (by decide))
  | null h =>
    obtain rfl : s = .null := (resolves_iff htag rfl).mp hs
    exact iff_of_true (.inl (.null h)) (not_departs_of_mem h (by decide))
  | timestamp h => exact coreValue_iff_timestamp h ((resolves_iff htag rfl).mp hs)
  | value h => exact absurd hs (not_resolves htag (by decide))
  | bool h =>
    obtain ⟨b, hb, rfl⟩ := (resolves_iff htag rfl).mp hs
    rw [truthValue_word h] at hb
    obtain rfl := Except.ok.inj hb
    exact iff_of_true (.inl (coreRule_truth h)) (not_departs_of_mem h (by decide))
  | int ht h =>
    obtain ⟨n, hn, rfl⟩ := (resolves_iff htag rfl).mp hs
    exact iff_of_true (coreValue_of_int h hn) (not_departs_of_isInteger ht h)
  | float ht hi h =>
    obtain ⟨d, hd, rfl⟩ := (resolves_iff htag rfl).mp hs
    exact coreValue_iff_float ht hi h hd
  | none hm hn ht hv hb hi hf =>
    obtain rfl : s = .text text := (resolves_iff htag rfl).mp hs
    exact coreValue_iff_text hn ht hb hi hf

/-! ## What departs -/

/-- Digits with a zero in front are read as the nearest double. -/
theorem departsTo_zeros {sign : Sign} {ds : List Char} (ht : text.toList = sign.chars ++ '0' :: ds)
    (h : ∀ c ∈ ds, digit c < 10) {d : Double} (hd : floatValue own text = .ok d) :
    DepartsTo text (.float d) := by
  let x : Decimal :=
    { whole := '0' :: ds
      fraction := none
      exponent := none
      whole_lt := List.forall_mem_cons.mpr ⟨by decide, h⟩
      fraction_lt := List.forall_mem_nil _
      digits_ne := List.cons_ne_nil _ _ }
  have hchars : x.chars = '0' :: ds := List.append_nil _
  have hmagnitude : x.magnitude = numeral 10 ('0' :: ds) := by
    simp [x, Decimal.magnitude, Decimal.mantissa, Decimal.scale]
  have hsign := Double.isNegative_ofDecimal sign.isNegative x.mantissa x.scale
  have hnearest := Double.nearest_ofDecimal sign.isNegative x.mantissa x.scale
  rw [floatValue_decimal sign x (hchars ▸ ht) hsign hnearest own] at hd
  obtain rfl := Except.ok.inj hd
  exact .zeros sign ht h hsign (hmagnitude ▸ hnearest)

/-- **What a plain scalar that departs is read as.** -/
theorem departsTo_of_departs (h : IsPlainText text) (hs : Resolves own text s)
    (hd : Departs text.toList) : DepartsTo text s := by
  have hrule := ruledBy_implicitTag h
  generalize htag : implicitTag text = tag at hrule
  cases hrule with
  | merge h => exact absurd hs (not_resolves htag (by decide))
  | null h => exact absurd hd (not_departs_of_mem h (by decide))
  | timestamp h => exact .timestamp h ((resolves_iff htag rfl).mp hs)
  | value h => exact absurd hs (not_resolves htag (by decide))
  | bool h => exact absurd hd (not_departs_of_mem h (by decide))
  | int ht h => exact absurd hd (not_departs_of_isInteger ht h)
  | float ht hi h =>
    obtain ⟨d, hfloat, rfl⟩ := (resolves_iff htag rfl).mp hs
    generalize hcs : text.toList = cs at *
    cases hd with
    | zeros sign hne hds => exact departsTo_zeros hcs hds hfloat
    | octal =>
      rw [isNumber_octal] at h
      cases h
    | timestamp hbad =>
      rw [ht] at hbad
      cases hbad
  | none hm hn ht hv hb hi hf =>
    obtain rfl : s = .text text := (resolves_iff htag rfl).mp hs
    generalize hcs : text.toList = cs at *
    cases hd with
    | zeros sign hne hds =>
      rw [isNumber_digits sign (List.cons_ne_nil '0' _) (List.forall_mem_cons.mpr ⟨by decide, hds⟩)] at hf
      cases hf
    | octal => exact .octal hcs
    | timestamp hbad =>
      rw [ht] at hbad
      cases hbad

end Resolution

end Componentry.Yaml

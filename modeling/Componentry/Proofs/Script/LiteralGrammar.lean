import Componentry.Proofs.Script.StringLiteral
import Componentry.Script.Printer

/-!
# The grammar of string literals

`StringLiteral` reads a literal from left to right.  Here the rules of ECMAScript that it follows are
written down as they are given: one constructor for each kind of escape sequence, and one for each kind
of character between the marks.  A rule that looks ahead speaks about the character that comes next.

Octal escapes and escaped digits are left out, since a module may not have them.  A line separator and
a paragraph separator may stand in a literal as they are.

**Main statements.** The reader accepts exactly the literals of the grammar
(`stringLiteral?_eq_some_iff`).  A printed text is the only literal that its own characters start with,
whatever follows them, it stands for the text, and it has no control characters
(`string_literal_read_back`).
-/

namespace Componentry.Script

/-! ## Rules -/

/-- The characters that stand for a fixed code behind a backslash. -/
def singleEscapes : List (Char × Nat) :=
  [('\'', 0x27), ('"', 0x22), ('\\', 0x5C), ('b', 0x08), ('f', 0x0C), ('n', 0x0A), ('r', 0x0D),
   ('t', 0x09), ('v', 0x0B)]

/-- An escape sequence without its backslash, and the codes that it stands for; `next` is the
character behind it. -/
inductive EscapeSequence (next : Char) : List Char → List Nat → Prop
  | single {c : Char} {n : Nat} (h : (c, n) ∈ singleEscapes) : EscapeSequence next [c] [n]
  /-- All other characters stand for themselves, unless they belong to another rule. -/
  | plain {c : Char} (hs : c ∉ singleEscapes.map Prod.fst) (hd : c.isDigit = false) (hx : c ≠ 'x')
    (hu : c ≠ 'u') (hl : isLineEnd c = false) : EscapeSequence next [c] [c.toNat]
  | zero (h : next.isDigit = false) : EscapeSequence next ['0'] [0]
  | two {a b : Char} (h : [a, b].all isHex = true) :
    EscapeSequence next ['x', a, b] [Text.natOfHex [a, b]]
  | four {a b c d : Char} (h : [a, b, c, d].all isHex = true) :
    EscapeSequence next ['u', a, b, c, d] [Text.natOfHex [a, b, c, d]]
  | braced {digits : List Char} (hne : digits ≠ []) (h : digits.all isHex = true)
    (hle : Text.natOfHex digits ≤ 0x10FFFF) :
    EscapeSequence next ('u' :: '{' :: (digits ++ ['}'])) [Text.natOfHex digits]
  /-- The end of a line stands for nothing. -/
  | lineEnd {c : Char} (h : isLineEnd c = true) (hr : c = '\r' → next ≠ '\n') :
    EscapeSequence next [c] []
  | lineEnds : EscapeSequence next ['\r', '\n'] []

/-- The characters between two marks, and the codes that they stand for. -/
inductive StringCharacters (mark : Char) : List Char → List Nat → Prop
  | nil : StringCharacters mark [] []
  | char {c : Char} {cs : List Char} {codes : List Nat} (hm : c ≠ mark) (hb : c ≠ '\\')
    (hn : c ≠ '\n') (hr : c ≠ '\r') (h : StringCharacters mark cs codes) :
    StringCharacters mark (c :: cs) (c.toNat :: codes)
  | escape {sequence cs : List Char} {first codes : List Nat}
    (he : EscapeSequence (cs.headD mark) sequence first) (h : StringCharacters mark cs codes) :
    StringCharacters mark ('\\' :: (sequence ++ cs)) (first ++ codes)

/-- The characters are a string literal that stands for `s`. -/
def IsStringLiteral (literal : List Char) (s : String) : Prop :=
  ∃ mark body codes, (mark = '"' ∨ mark = '\'') ∧ literal = mark :: (body ++ [mark]) ∧
    StringCharacters mark body codes ∧ textOfCodes? (joinHalves codes) = some s

/-- What follows the characters between the marks. -/
theorem head?_append_mark (cs : List Char) (mark : Char) (after : List Char) :
    (cs ++ mark :: after).head? = some (cs.headD mark) := by
  cases cs <;> rfl

/-! ## Codes by their digits -/

theorem hexCode?_eq_some_iff {digits : List Char} {n : Nat} :
    hexCode? digits = some n ↔ digits ≠ [] ∧ digits.all isHex = true ∧
      Text.natOfHex digits ≤ 0x10FFFF ∧ Text.natOfHex digits = n := by
  rw [hexCode?, Option.ite_none_right_eq_some]
  simp only [Bool.and_eq_true, bne_iff_ne, decide_eq_true_eq, Option.some.injEq, and_assoc]

theorem getD_hexValue?_lt (c : Char) : (Text.hexValue? c).getD 0 < 16 := by
  simp only [Text.hexValue?]
  grind

theorem natOfHex_lt (digits : List Char) : Text.natOfHex digits < Nat.pow 16 digits.length := by
  have hfold : ∀ (ds : List Char) (n : Nat),
      ds.foldl (fun n c => 16 * n + (Text.hexValue? c).getD 0) n < (n + 1) * Nat.pow 16 ds.length := by
    intro ds
    induction ds with
    | nil => simp
    | cons d ds ih =>
      intro n
      have hd := getD_hexValue?_lt d
      calc (d :: ds).foldl (fun n c => 16 * n + (Text.hexValue? c).getD 0) n
          < (16 * n + (Text.hexValue? d).getD 0 + 1) * Nat.pow 16 ds.length := ih _
        _ ≤ (n + 1) * 16 * Nat.pow 16 ds.length := Nat.mul_le_mul_right _ (by omega)
        _ = (n + 1) * Nat.pow 16 (d :: ds).length := by
          rw [Nat.mul_assoc, List.length_cons, Nat.mul_comm 16]
          rfl
  have h := hfold digits 0
  rwa [Nat.zero_add, Nat.one_mul] at h

/-- Up to four digits never give a code that is too large. -/
theorem hexCode?_of_length_le {digits : List Char} (hne : digits ≠ []) (hlen : digits.length ≤ 4)
    (h : digits.all isHex = true) : hexCode? digits = some (Text.natOfHex digits) := by
  have hpow : Nat.pow 16 digits.length ≤ Nat.pow 16 4 := Nat.pow_le_pow_right (by decide) hlen
  have hlt := natOfHex_lt digits
  have hlimit : Nat.pow 16 4 ≤ 0x10FFFF := by decide
  exact hexCode?_eq_some_iff.mpr ⟨hne, h, by omega, rfl⟩

/-! ## Escape sequences -/

/-- A character that stands alone behind a backslash. -/
theorem escape?_cons {c : Char} (hx : c ≠ 'x') (hu : c ≠ 'u') {after : List Char}
    (hr : c = '\r' → after.head? ≠ some '\n') :
    escape? (c :: after) =
      if isLineEnd c then some ([], after)
      else if c == '0' && !after.head?.any Char.isDigit then some ([0], after)
      else if c.isDigit then none
      else some ([escapedCode c], after) := by
  rw [escape?]
  · simp [hu]
  · simp [hu]
  · simp [hu]
  · simp [hx]
  · simp [hx]
  · rintro after' hc rfl
    exact hr hc rfl

/-- A character that belongs to no rule of its own stands for one code. -/
theorem escape?_escapedCode {c : Char} (hd : c.isDigit = false) (hx : c ≠ 'x') (hu : c ≠ 'u')
    (hl : isLineEnd c = false) (after : List Char) :
    escape? (c :: after) = some ([escapedCode c], after) := by
  have hr : c ≠ '\r' := by
    rintro rfl
    cases hl
  have hz : c ≠ '0' := by
    rintro rfl
    cases hd
  rw [escape?_cons hx hu fun h => absurd h hr]
  simp [hl, hd, hz]

theorem escapedCode_of_single : ∀ p ∈ singleEscapes, p.1.isDigit = false ∧ p.1 ≠ 'x' ∧ p.1 ≠ 'u' ∧
    isLineEnd p.1 = false ∧ escapedCode p.1 = p.2 := by
  decide

theorem escapedCode_of_not_single {c : Char} (h : c ∉ singleEscapes.map Prod.fst) :
    escapedCode c = c.toNat := by
  simp only [singleEscapes, List.map_cons, List.map_nil, List.mem_cons, List.not_mem_nil, or_false,
    not_or] at h
  unfold escapedCode
  split
  all_goals simp_all

/-- An escape sequence of the grammar is read as what it stands for. -/
theorem EscapeSequence.escape?_eq {next : Char} {sequence after : List Char} {codes : List Nat}
    (h : EscapeSequence next sequence codes) (ha : after.head? = some next) :
    escape? (sequence ++ after) = some (codes, after) := by
  cases h with
  | single h =>
    obtain ⟨hd, hx, hu, hl, hc⟩ := escapedCode_of_single _ h
    rw [List.singleton_append, escape?_escapedCode hd hx hu hl, hc]
  | plain hs hd hx hu hl =>
    rw [List.singleton_append, escape?_escapedCode hd hx hu hl, escapedCode_of_not_single hs]
  | zero h =>
    rw [List.singleton_append, escape?_cons (by decide) (by decide) (by simp)]
    simp [ha, h, isLineEnd]
  | two h => simp [escape?, hexCode?_of_length_le _ _ h]
  | @four a b c d h =>
    have hbrace : a ≠ '{' := by
      rintro rfl
      cases h
    simp [escape?, hexCode?_of_length_le _ _ h]
  | @braced digits hne h hle =>
    have hdigits := List.all_eq_true.mp h
    have hdrop : (digits ++ '}' :: after).dropWhile isHex = '}' :: after := by
      rw [List.dropWhile_append_of_pos hdigits]
      rfl
    have htake : (digits ++ '}' :: after).takeWhile isHex = digits := by
      rw [List.takeWhile_append_of_pos hdigits, List.takeWhile_cons_of_neg (by decide),
        List.append_nil]
    simp [escape?, hdrop, htake, hexCode?_eq_some_iff.mpr ⟨hne, h, hle, rfl⟩]
  | @lineEnd c h hr =>
    rw [List.singleton_append, escape?_cons, if_pos h]
    · rintro rfl
      cases h
    · rintro rfl
      cases h
    · intro hc
      rw [ha]
      exact fun he => hr hc (Option.some.inj he)
  | lineEnds => rfl

/-- What is read as an escape sequence is one by the grammar. -/
theorem escapeSequence_of_escape? {next : Char} {cs after : List Char} {codes : List Nat}
    (h : escape? cs = some (codes, after)) (ha : after.head? = some next) :
    ∃ sequence, cs = sequence ++ after ∧ EscapeSequence next sequence codes := by
  unfold escape? at h
  split at h
  · cases h
  · next rest =>
    split at h
    · next after' hd =>
      obtain ⟨n, hn, hp⟩ := Option.map_eq_some_iff.mp h
      cases hp
      obtain ⟨hne, hall, hle, rfl⟩ := hexCode?_eq_some_iff.mp hn
      refine ⟨_, ?_, .braced hne hall hle⟩
      have hsplit := List.takeWhile_append_dropWhile (p := isHex) (l := rest)
      rw [hd] at hsplit
      simp [hsplit]
    · cases h
  · obtain ⟨n, hn, hp⟩ := Option.map_eq_some_iff.mp h
    cases hp
    obtain ⟨-, hall, -, rfl⟩ := hexCode?_eq_some_iff.mp hn
    exact ⟨_, rfl, .four hall⟩
  · cases h
  · obtain ⟨n, hn, hp⟩ := Option.map_eq_some_iff.mp h
    cases hp
    obtain ⟨-, hall, -, rfl⟩ := hexCode?_eq_some_iff.mp hn
    exact ⟨_, rfl, .two hall⟩
  · cases h
  · cases h
    exact ⟨_, rfl, .lineEnds⟩
  · next c after' _ _ hu _ hx hr =>
    -- one character: a line end, a zero, or what has a code
    split at h
    · next hl =>
      cases h
      refine ⟨[c], rfl, .lineEnd hl fun hc hn => ?_⟩
      obtain ⟨rest, rfl⟩ := List.head?_eq_some_iff.mp ha
      exact hr rest hc (by rw [hn])
    next hl =>
    split at h
    · next hz =>
      cases h
      rw [ha, Bool.and_eq_true, beq_iff_eq] at hz
      obtain ⟨rfl, hz⟩ := hz
      exact ⟨['0'], rfl, .zero (by simpa using hz)⟩
    split at h
    · cases h
    next hd =>
    cases h
    refine ⟨[c], rfl, ?_⟩
    by_cases hs : c ∈ singleEscapes.map Prod.fst
    · obtain ⟨p, hp, rfl⟩ := List.mem_map.mp hs
      rw [(escapedCode_of_single p hp).2.2.2.2]
      exact .single hp
    · rw [escapedCode_of_not_single hs]
      exact .plain hs (by simpa using hd) hx hu (by simpa using hl)

/-! ## Literals -/

/-- The characters of a literal are read up to its closing mark. -/
theorem StringCharacters.codes?_eq {mark : Char} {body : List Char} {codes : List Nat}
    (h : StringCharacters mark body codes) (hm : '\\' ≠ mark) (after : List Char) :
    codes? mark (body ++ mark :: after) = some (codes, after) := by
  induction h with
  | nil => exact codes?_mark mark after
  | char hm hb hn hr _ ih =>
    rw [List.cons_append, codes?_cons hm hb hn hr, ih]
    rfl
  | @escape sequence cs first codes he _ ih =>
    have hnext := head?_append_mark cs mark after
    rw [List.cons_append, List.append_assoc, codes?_escape hm (he.escape?_eq hnext), ih]
    rfl

/-- What is read up to a closing mark are the characters of a literal. -/
theorem stringCharacters_of_codes? {mark : Char} {cs after : List Char} {codes : List Nat}
    (h : codes? mark cs = some (codes, after)) :
    ∃ body, cs = body ++ mark :: after ∧ StringCharacters mark body codes := by
  fun_induction codes? mark cs generalizing codes after with
  | case1 => cases h
  | case2 =>
    cases h
    exact ⟨[], rfl, .nil⟩
  | case3 _ first rest he _ ih =>
    obtain ⟨⟨more, after'⟩, hc, hp⟩ := Option.map_eq_some_iff.mp h
    cases hp
    obtain ⟨body, rfl, hbody⟩ := ih hc
    obtain ⟨sequence, rfl, hsequence⟩ :=
      escapeSequence_of_escape? he (head?_append_mark body mark after)
    exact ⟨'\\' :: (sequence ++ body), by simp, .escape hsequence hbody⟩
  | case4 => cases h
  | case5 => cases h
  | case6 c rest hm hb hn ih =>
    obtain ⟨⟨more, after'⟩, hc, hp⟩ := Option.map_eq_some_iff.mp h
    cases hp
    obtain ⟨body, rfl, hbody⟩ := ih hc
    rw [Bool.or_eq_true, decide_eq_true_eq, decide_eq_true_eq, not_or] at hn
    exact ⟨c :: body, rfl, .char hm hb hn.1 hn.2 hbody⟩

/-- **The reader accepts exactly the literals of the grammar.** -/
theorem stringLiteral?_eq_some_iff {cs after : List Char} {s : String} :
    stringLiteral? cs = some (s, after) ↔
      ∃ literal, cs = literal ++ after ∧ IsStringLiteral literal s := by
  constructor
  · intro h
    unfold stringLiteral? at h
    split at h
    · next mark rest =>
      split at h
      · next hm =>
        obtain ⟨⟨codes, after'⟩, hc, h⟩ := Option.bind_eq_some_iff.mp h
        obtain ⟨text, htext, h⟩ := Option.bind_eq_some_iff.mp h
        cases h
        obtain ⟨body, rfl, hbody⟩ := stringCharacters_of_codes? hc
        refine ⟨mark :: (body ++ [mark]), by simp, mark, body, codes, ?_, rfl, hbody, htext⟩
        simpa using hm
      · cases h
    · cases h
  · rintro ⟨_, rfl, mark, body, codes, hm, rfl, hbody, htext⟩
    have hmark : '\\' ≠ mark := by
      rcases hm with rfl | rfl <;> decide
    have hcodes := hbody.codes?_eq hmark after
    simp [stringLiteral?, hm, hcodes, htext]

/-! ## Printed texts -/

theorem stringLiteral?_quoted (s : String) (rest : List Char) :
    stringLiteral? ((Text.quoted s).toList ++ rest) = some (s, rest) := by
  rw [Text.quoted, String.toList_ofList, stringLiteral?_quotedChars, String.ofList_toList]

theorem isStringLiteral_quoted (s : String) : IsStringLiteral (Text.quoted s).toList s := by
  obtain ⟨literal, hsplit, hliteral⟩ := stringLiteral?_eq_some_iff.mp (stringLiteral?_quoted s [])
  rw [List.append_cancel_right hsplit]
  exact hliteral

/-- No two literals start at the same place. -/
theorem IsStringLiteral.eq_quoted {literal after rest : List Char} {s t : String}
    (h : IsStringLiteral literal t) (hsplit : literal ++ after = (Text.quoted s).toList ++ rest) :
    literal = (Text.quoted s).toList ∧ t = s := by
  have hread : stringLiteral? (literal ++ after) = some (t, after) :=
    stringLiteral?_eq_some_iff.mpr ⟨literal, rfl, h⟩
  rw [hsplit, stringLiteral?_quoted] at hread
  cases hread
  exact ⟨List.append_cancel_right hsplit, rfl⟩

theorem le_toNat_of_mem_quotedChar {c d : Char} (h : d ∈ Text.quotedChar c) : 0x20 ≤ d.toNat := by
  have hdigits : (List.range 0x20).all
      (fun n => (Text.hexDigits 4 n).all (0x20 ≤ ·.toNat)) = true := by decide
  have hall : (Text.quotedChar c).all (0x20 ≤ ·.toNat) = true := by
    unfold Text.quotedChar
    repeat (split; · rfl)
    split
    · next hc => simpa using List.all_eq_true.mp hdigits c.toNat (List.mem_range.mpr hc)
    · next hc => simpa using hc
  simpa using List.all_eq_true.mp hall d h

/-- A quoted text has no control characters. -/
theorem le_toNat_of_mem_quoted {s : String} {c : Char} (h : c ∈ (Text.quoted s).toList) :
    0x20 ≤ c.toNat := by
  rw [Text.quoted, String.toList_ofList, Text.quotedChars, List.mem_cons, List.mem_append,
    List.mem_flatMap, List.mem_singleton] at h
  rcases h with rfl | ⟨d, -, hd⟩ | rfl
  · decide
  · exact le_toNat_of_mem_quotedChar hd
  · decide

/-- **A printed text is read back, whatever follows it.** It is printed as a literal, which the reader
takes to its end and not further, and finds the text in it.  By the grammar nothing else would be right:
of all that a text starts with, where the literal stands in front, only the literal is one, and it stands
for the text alone.  It has no line feed, no carriage return and no other control below U+0020. -/
theorem string_literal_read_back (annotated : Bool) (level : Int) (s : String) :
    expressionText annotated level (.text s) = .ok (Text.quoted s) ∧
    (∀ rest, stringLiteral? ((Text.quoted s).toList ++ rest) = some (s, rest)) ∧
    (∀ rest literal after t, literal ++ after = (Text.quoted s).toList ++ rest →
      (IsStringLiteral literal t ↔ literal = (Text.quoted s).toList ∧ t = s)) ∧
    ∀ c ∈ (Text.quoted s).toList, 0x20 ≤ c.toNat := by
  refine ⟨by rw [expressionText], stringLiteral?_quoted s, ?_, fun c => le_toNat_of_mem_quoted⟩
  intro rest literal after t hsplit
  constructor
  · exact fun h => h.eq_quoted hsplit
  · rintro ⟨rfl, rfl⟩
    exact isStringLiteral_quoted t

/-- A text of characters that are escaped.  Its literal does not end at the escaped mark. -/
theorem string_literal_read_back_escapes :
    Text.quoted "\"\\\n\x01" = "\"\\\"\\\\\\n\\u0001\"" ∧
    stringLiteral? "\"\\\"\\\\\\n\\u0001\"\"".toList = some ("\"\\\n\x01", ['"']) ∧
    (∀ t, IsStringLiteral "\"\\\"\\\\\\n\\u0001\"".toList t ↔ t = "\"\\\n\x01") ∧
    ∀ t, ¬ IsStringLiteral "\"\\\"".toList t := by
  obtain ⟨-, hread, hunique, -⟩ := string_literal_read_back false 0 "\"\\\n\x01"
  have hquoted : Text.quoted "\"\\\n\x01" = "\"\\\"\\\\\\n\\u0001\"" := by decide
  rw [hquoted] at hread hunique
  refine ⟨hquoted, hread ['"'], fun t => ?_, fun t h => ?_⟩
  · exact (hunique [] _ [] t rfl).trans (and_iff_right rfl)
  · have hwhole := (hunique [] _ "\\\\\\n\\u0001\"".toList t rfl).mp h
    exact absurd hwhole.1 (by decide)

end Componentry.Script

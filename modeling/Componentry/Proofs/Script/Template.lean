import Componentry.Proofs.Outcome
import Componentry.Proofs.Script.StringLiteral
import Componentry.Script.Printer

/-!
# Reading template literals

A template literal stands between backticks.  It is read segment by segment: a segment ends at a
backtick, which closes the literal, or at `${`, where a substitution starts.  A backslash takes the
character behind it along, so that neither is seen there.

Segments are printed with backslashes in them, expressions are printed as they are.

**Main statement.** An escaped segment is scanned to its end and not further, and it stands for the
text that was escaped.  So in a printed template the substitutions start where the expressions were
printed, and nowhere else (`template_literal_scanned`).

## The seam

What follows a segment is a backtick or a dollar sign.  Neither completes a `${` with the last
character of the segment, whether that is a dollar sign or not (`head?_escapeSegment_append`).

## What is left out

The line breaks of a template all count as line feeds when it is evaluated.  Here they are kept.
-/

namespace Componentry.Script

/-! ## Escaping in three rounds -/

/-- The text with `new` in place of `old` wherever that occurs, from left to right. -/
def replaced (old new : List Char) (cs : List Char) : List Char :=
  match cs with
  | [] => []
  | c :: rest =>
    if old.isPrefixOf (c :: rest) then new ++ replaced old new (rest.drop (old.length - 1))
    else c :: replaced old new rest
termination_by cs.length
decreasing_by
  · simp only [List.length_drop, List.length_cons]
    omega
  · simp

/-- The text with a backslash in front of every occurrence of `old`. -/
abbrev escaped (old : List Char) (cs : List Char) : List Char :=
  replaced old ('\\' :: old) cs

theorem escaped_self (c : Char) (rest : List Char) :
    escaped [c] (c :: rest) = '\\' :: c :: escaped [c] rest := by
  rw [escaped, replaced]
  simp

theorem escaped_of_ne {c d : Char} (h : d ≠ c) (rest : List Char) :
    escaped [c] (d :: rest) = d :: escaped [c] rest := by
  rw [escaped, replaced]
  simp [Ne.symm h]

theorem escaped_opening (rest : List Char) :
    escaped ['$', '{'] ('$' :: '{' :: rest) = '\\' :: '$' :: '{' :: escaped ['$', '{'] rest := by
  rw [escaped, replaced]
  simp

theorem escaped_of_not_opening {c : Char} {rest : List Char}
    (h : c = '$' → rest.head? ≠ some '{') :
    escaped ['$', '{'] (c :: rest) = c :: escaped ['$', '{'] rest := by
  rw [escaped, replaced, if_neg]
  intro hp
  obtain ⟨after, hafter⟩ := List.isPrefixOf_iff_prefix.mp hp
  cases hafter
  exact h rfl rfl

/-- A dollar sign that starts no `${` has no brace behind it. -/
theorem head?_of_not_opening {c : Char} {rest : List Char}
    (h : ∀ after, c = '$' → rest = '{' :: after → False) (hc : c = '$') :
    rest.head? ≠ some '{' := by
  intro hr
  obtain ⟨after, rfl⟩ := List.head?_eq_some_iff.mp hr
  exact h after hc rfl

/-- The first two rounds put no brace at the start of a text. -/
theorem head?_escaped {rest : List Char} (h : rest.head? ≠ some '{') :
    (escaped ['`'] (escaped ['\\'] rest)).head? ≠ some '{' := by
  cases rest with
  | nil => simp [replaced]
  | cons c rest =>
    by_cases hb : c = '\\'
    · subst hb
      rw [escaped_self, escaped_of_ne (by decide)]
      simp
    rw [escaped_of_ne hb]
    by_cases ht : c = '`'
    · subst ht
      rw [escaped_self]
      simp
    · rw [escaped_of_ne ht]
      simpa using h

/-- **Escaping is three rounds of replacements**, of backslashes, of backticks and of `${`. -/
theorem escapeSegment_eq_escaped (cs : List Char) :
    escapeSegment cs = escaped ['$', '{'] (escaped ['`'] (escaped ['\\'] cs)) := by
  fun_induction escapeSegment cs with
  | case1 => simp [replaced]
  | case2 rest ih =>
    rw [escaped_self, escaped_of_ne (by decide), escaped_of_ne (by decide),
      escaped_of_not_opening (by simp), escaped_of_not_opening (by simp), ih]
  | case3 rest ih =>
    rw [escaped_of_ne (by decide), escaped_self, escaped_of_not_opening (by simp),
      escaped_of_not_opening (by simp), ih]
  | case4 rest ih =>
    rw [escaped_of_ne (by decide), escaped_of_ne (by decide), escaped_of_ne (by decide),
      escaped_of_ne (by decide), escaped_opening, ih]
  | case5 c rest hb ht hd ih =>
    have hopen : c = '$' → (escaped ['`'] (escaped ['\\'] rest)).head? ≠ some '{' :=
      fun hc => head?_escaped (head?_of_not_opening hd hc)
    rw [escaped_of_ne hb, escaped_of_ne ht, escaped_of_not_opening hopen, ih]

/-! ## Scanning a segment -/

/-- What a scanner takes of a text up to the next backtick or `${`, and what is left. -/
def scanSegment : List Char → List Char × List Char
  | [] => ([], [])
  | '`' :: rest => ([], '`' :: rest)
  | '$' :: '{' :: rest => ([], '$' :: '{' :: rest)
  | '\\' :: c :: rest => ('\\' :: c :: (scanSegment rest).1, (scanSegment rest).2)
  | c :: rest => (c :: (scanSegment rest).1, (scanSegment rest).2)

/-- A text at whose start a scanner stops. -/
def EndsSegment (cs : List Char) : Prop :=
  ['`'] <+: cs ∨ ['$', '{'] <+: cs

theorem scanSegment_of_endsSegment {cs : List Char} (h : EndsSegment cs) :
    scanSegment cs = ([], cs) := by
  rcases h with ⟨rest, rfl⟩ | ⟨rest, rfl⟩ <;> rfl

theorem scanSegment_cons {c : Char} {rest : List Char} (hb : c ≠ '\\') (ht : c ≠ '`')
    (hd : c = '$' → rest.head? ≠ some '{') :
    scanSegment (c :: rest) = (c :: (scanSegment rest).1, (scanSegment rest).2) := by
  rw [scanSegment]
  · exact ht
  · rintro after hc rfl
    exact hd hc rfl
  · exact fun _ _ hc => absurd hc hb

/-- A dollar sign at the end of a segment is not followed by a brace. -/
theorem head?_escapeSegment_append {cs next : List Char} (h : cs.head? ≠ some '{')
    (hn : EndsSegment next) : (escapeSegment cs ++ next).head? ≠ some '{' := by
  fun_cases escapeSegment cs with
  | case1 =>
    rcases hn with ⟨rest, rfl⟩ | ⟨rest, rfl⟩ <;> simp
  | case2 => simp
  | case3 => simp
  | case4 => simp
  | case5 c rest => simpa using h

/-- **An escaped segment is scanned to its end and not further.** -/
theorem scanSegment_escapeSegment (cs : List Char) {next : List Char} (hn : EndsSegment next) :
    scanSegment (escapeSegment cs ++ next) = (escapeSegment cs, next) := by
  fun_induction escapeSegment cs with
  | case1 => exact scanSegment_of_endsSegment hn
  | case2 rest ih => simp [scanSegment, ih]
  | case3 rest ih => simp [scanSegment, ih]
  | case4 rest ih =>
    -- the brace is an ordinary character once the dollar sign is taken along
    simp only [List.cons_append, scanSegment]
    rw [scanSegment_cons (by decide) (by decide) (by simp), ih]
  | case5 c rest hb ht hd ih =>
    have hopen : c = '$' → (escapeSegment rest ++ next).head? ≠ some '{' :=
      fun hc => head?_escapeSegment_append (head?_of_not_opening hd hc) hn
    rw [List.cons_append, scanSegment_cons hb ht hopen, ih]

/-! ## What a segment stands for -/

/-- The codes of the characters that a segment stands for. -/
def segmentCodes? (cs : List Char) : Option (List Nat) :=
  match cs with
  | [] => some []
  | c :: rest =>
    if c = '\\' then
      match _h : escape? rest with
      | some (codes, after) => (segmentCodes? after).map (codes ++ ·)
      | none => none
    else (segmentCodes? rest).map (c.toNat :: ·)
termination_by cs.length
decreasing_by
  · have := length_escape? _h
    simp only [List.length_cons]
    omega
  · simp

theorem segmentCodes?_cons {c : Char} (h : c ≠ '\\') (rest : List Char) :
    segmentCodes? (c :: rest) = (segmentCodes? rest).map (c.toNat :: ·) := by
  rw [segmentCodes?, if_neg h]

/-- A character that a backslash stands in front of. -/
theorem segmentCodes?_escape {c : Char} {rest : List Char}
    (h : escape? (c :: rest) = some ([c.toNat], rest)) :
    segmentCodes? ('\\' :: c :: rest) = (segmentCodes? rest).map (c.toNat :: ·) := by
  rw [segmentCodes?, if_pos rfl]
  split
  · next h' =>
    rw [h] at h'
    cases h'
    rfl
  · next h' =>
    rw [h] at h'
    cases h'

/-- **An escaped segment stands for the text that was escaped.** -/
theorem segmentCodes?_escapeSegment (cs : List Char) :
    segmentCodes? (escapeSegment cs) = some (cs.map Char.toNat) := by
  fun_induction escapeSegment cs with
  | case1 => simp [segmentCodes?]
  | case2 rest ih => rw [segmentCodes?_escape rfl, ih]; rfl
  | case3 rest ih => rw [segmentCodes?_escape rfl, ih]; rfl
  | case4 rest ih => rw [segmentCodes?_escape rfl, segmentCodes?_cons (by decide), ih]; rfl
  | case5 c rest hb ht hd ih => rw [segmentCodes?_cons hb, ih]; rfl

/-! ## Template literals -/

/-- The segments and the expressions of a template literal up to its closing mark, and what follows
the mark.  The scanner decides where a substitution starts; it is told how long the expressions in
the substitutions are, one after another. -/
def templateParts? : List Nat → List Char → Option (List (List Nat) × List (List Char) × List Char)
  | sizes, cs => do
    let (segment, rest) := scanSegment cs
    let codes ← segmentCodes? segment
    match sizes, rest with
    | [], '`' :: after => some ([codes], [], after)
    | size :: sizes, '$' :: '{' :: rest =>
      match rest.drop size with
      | '}' :: more =>
        let (segments, expressions, after) ← templateParts? sizes more
        some (codes :: segments, rest.take size :: expressions, after)
      | _ => none
    | _, _ => none

/-- The segments and the expressions of the template literal that a text starts with, and what
follows the literal. -/
def templateLiteral? (sizes : List Nat) (cs : List Char) :
    Option (List (List Nat) × List (List Char) × List Char) :=
  match cs with
  | '`' :: rest => templateParts? sizes rest
  | _ => none

/-- The last segment of a template. -/
theorem templateParts?_last (cs after : List Char) :
    templateParts? [] (escapeSegment cs ++ '`' :: after) = some ([cs.map Char.toNat], [], after) := by
  have hn : EndsSegment ('`' :: after) := .inl ⟨after, rfl⟩
  rw [templateParts?, scanSegment_escapeSegment cs hn]
  simp [segmentCodes?_escapeSegment]

/-- A segment with a substitution behind it. -/
theorem templateParts?_cons {sizes : List Nat} {more after : List Char}
    {segments : List (List Nat)} {expressions : List (List Char)} (cs inner : List Char)
    (h : templateParts? sizes more = some (segments, expressions, after)) :
    templateParts? (inner.length :: sizes)
        (escapeSegment cs ++ '$' :: '{' :: (inner ++ '}' :: more)) =
      some (cs.map Char.toNat :: segments, inner :: expressions, after) := by
  have hn : EndsSegment ('$' :: '{' :: (inner ++ '}' :: more)) := .inr ⟨_, rfl⟩
  rw [templateParts?, scanSegment_escapeSegment cs hn]
  simp [segmentCodes?_escapeSegment, h]

/-- The inside of a printed template is read as its segments and its expressions. -/
theorem ensures_templateText {annotated : Bool} {level : Int} :
    ∀ {expressions segments : List Node}, segments.length = expressions.length + 1 →
    Ensures (templateText annotated level segments expressions) fun text =>
      ∃ raws texts, segments.mapM Node.raw = .ok raws ∧
        expressionTexts annotated level expressions = .ok texts ∧
        ∀ after, templateParts? (texts.map String.length) (text.toList ++ '`' :: after) =
          some (raws.map fun raw => raw.toList.map Char.toNat, texts.map String.toList, after)
  | [], segments, hlength => by
    obtain ⟨segment, rfl⟩ := List.length_eq_one_iff.mp hlength
    rw [templateText, segmentsText, segmentsText]
    refine Ensures.bind (fun raw hraw => hraw) fun raw hraw => ensures_pure ?_
    refine ⟨[raw], [], mapM_cons_ok hraw rfl, by rw [expressionTexts], fun after => ?_⟩
    simpa using templateParts?_last raw.toList after
  | e :: expressions, segments, hlength => by
    obtain ⟨segment, more, rfl⟩ := List.exists_cons_of_length_eq_add_one hlength
    have hmore : more.length = expressions.length + 1 := by simpa using hlength
    rw [templateText]
    refine Ensures.bind (fun raw hraw => hraw) fun raw hraw => ?_
    refine Ensures.bind (fun inner htext => htext) fun inner htext => ?_
    refine (ensures_templateText hmore).bind fun rest hrest => ensures_pure ?_
    obtain ⟨raws, texts, hraws, htexts, hparts⟩ := hrest
    refine ⟨raw :: raws, inner :: texts, mapM_cons_ok hraw hraws, ?_, fun after => ?_⟩
    · rw [expressionTexts, htext, htexts]
      rfl
    · have hcons := templateParts?_cons raw.toList inner.toList (hparts after)
      rw [String.length_toList] at hcons
      simpa using hcons

/-- **The text of a template never closes the literal and never opens a substitution.**  Escaping, which
is three rounds of replacements, makes of every text one that a scanner takes to its end, if a backtick
or `${` follows, and that stands for the text.  Every printed template with one segment more than it has
expressions is read as its segments and its expressions: each substitution starts where an expression
was printed. -/
theorem template_literal_scanned :
    (∀ cs next : List Char, EndsSegment next →
      escapeSegment cs = escaped ['$', '{'] (escaped ['`'] (escaped ['\\'] cs)) ∧
      scanSegment (escapeSegment cs ++ next) = (escapeSegment cs, next) ∧
      segmentCodes? (escapeSegment cs) = some (cs.map Char.toNat)) ∧
    ∀ (annotated : Bool) (level : Int) (segments expressions : List Node) (text : String),
      expressionText annotated level (.template segments expressions) = .ok text →
      segments.length = expressions.length + 1 →
      ∃ raws texts, segments.mapM Node.raw = .ok raws ∧
        expressionTexts annotated level expressions = .ok texts ∧
        ∀ after, templateLiteral? (texts.map String.length) (text.toList ++ after) =
          some (raws.map fun raw => raw.toList.map Char.toNat, texts.map String.toList, after) := by
  constructor
  · intro cs next hn
    exact ⟨escapeSegment_eq_escaped cs, scanSegment_escapeSegment cs hn,
      segmentCodes?_escapeSegment cs⟩
  · intro annotated level segments expressions text h hlength
    rw [expressionText] at h
    revert text
    refine Ensures.bind (ensures_templateText hlength) fun inner hinner => ensures_pure ?_
    obtain ⟨raws, texts, hraws, htexts, hparts⟩ := hinner
    refine ⟨raws, texts, hraws, htexts, fun after => ?_⟩
    simpa [templateLiteral?] using hparts after

/-- A dollar sign in front of a substitution, and a segment of all that is escaped behind it.  The name
in the substitution is printed as it is, with its brace and its backtick. -/
theorem template_literal_scanned_seam :
    expressionText false 0
        (.template [.segment "$" false, .segment "`\\$\x7b" true] [.name "x\x7d`"]) =
      .ok "`$$\x7bx\x7d`\x7d\\`\\\\\\$\x7b`" ∧
    templateLiteral? [3] "`$$\x7bx\x7d`\x7d\\`\\\\\\$\x7b`;".toList =
      some (["$".toList.map Char.toNat, "`\\$\x7b".toList.map Char.toNat], ["x\x7d`".toList], [';']) := by
  have htext : expressionText false 0
      (.template [.segment "$" false, .segment "`\\$\x7b" true] [.name "x\x7d`"]) =
      .ok "`$$\x7bx\x7d`\x7d\\`\\\\\\$\x7b`" := by
    simp only [expressionText, templateText]
    decide
  refine ⟨htext, ?_⟩
  obtain ⟨raws, texts, hraws, htexts, hread⟩ := template_literal_scanned.2 _ _ _ _ _ htext rfl
  simp only [expressionTexts, expressionText] at htexts
  cases hraws
  cases htexts
  exact hread [';']

end Componentry.Script

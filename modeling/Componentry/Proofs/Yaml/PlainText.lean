import Componentry.Proofs.Yaml.CoreSchema
import Componentry.Proofs.Yaml.Token

/-!
# The texts of plain scalars

A plain scalar starts where no other token does, and it ends in a word.  So its text does not start
with an indicator of anchors, aliases and tags, and no line break ends it.

**Main statement.** This holds of all plain scalars among the tokens of a text
(`isPlainText_of_ofText`).
-/

namespace Componentry.Yaml

/-! ## Words -/

theorem not_isWideGap_of_mem_plainWord {inFlow : Bool} {d : Char} : ∀ {cs : List Char},
    d ∈ plainWord inFlow cs → isWideGap d = false
  | [], h => by cases h
  | c :: cs, h => by
    rw [plainWord] at h
    split at h
    · cases h
    · next hc =>
      rcases List.mem_cons.mp h with rfl | h
      · simp only [Bool.or_eq_true, not_or] at hc
        exact Bool.eq_false_iff.mpr hc.1.1
      · exact not_isWideGap_of_mem_plainWord h

theorem plainWord_isPrefix (inFlow : Bool) : ∀ cs : List Char, plainWord inFlow cs <+: cs
  | [] => List.prefix_rfl
  | c :: cs => by
    rw [plainWord]
    split
    · exact List.nil_prefix
    · exact List.cons_prefix_cons.mpr ⟨rfl, plainWord_isPrefix inFlow cs⟩

/-- The words of a plain scalar are none, or a word and what is read behind it. -/
theorem exists_readPlainWords (inFlow : Bool) (indent limit : Nat) (gap : List Char) (stop : Mark)
    (broken : Bool) (c : Cursor) :
    (readPlainWords inFlow indent (limit + 1) gap stop broken c).1 = [] ∨
      ∃ rest, (readPlainWords inFlow indent (limit + 1) gap stop broken c).1 =
          gap ++ plainWord inFlow c.rest ++ rest ∧ plainWord inFlow c.rest ≠ [] ∧
        (rest = [] ∨ ∃ gap' stop' broken' c',
          rest = (readPlainWords inFlow indent limit gap' stop' broken' c').1) := by
  rw [readPlainWords]
  dsimp only
  split
  · exact .inl rfl
  · split
    · exact .inl rfl
    · next hword =>
      have hne : plainWord inFlow c.rest ≠ [] := mt List.isEmpty_iff.mpr hword
      split
      · exact .inr ⟨[], by rw [List.append_nil], hne, .inl rfl⟩
      · exact .inr ⟨_, rfl, hne, .inr ⟨_, _, _, _, rfl⟩⟩

/-- A plain scalar does not end in a gap. -/
theorem not_isWideGap_getLast? (inFlow : Bool) (indent : Nat) {d : Char} :
    ∀ (limit : Nat) (gap : List Char) (stop : Mark) (broken : Bool) (c : Cursor),
      (readPlainWords inFlow indent limit gap stop broken c).1.getLast? = some d → isWideGap d = false
  | 0, gap, stop, broken, c, h => by cases h
  | limit + 1, gap, stop, broken, c, h => by
    obtain he | ⟨rest, he, hne, hrest⟩ := exists_readPlainWords inFlow indent limit gap stop broken c
    · rw [he] at h
      cases h
    · rw [he] at h
      have hword : (gap ++ plainWord inFlow c.rest).getLast? = some d → isWideGap d = false := by
        rw [List.getLast?_append_of_ne_nil _ hne]
        exact fun h => not_isWideGap_of_mem_plainWord (List.mem_of_getLast? h)
      rcases hrest with rfl | ⟨gap', stop', broken', c', rfl⟩
      · rw [List.append_nil] at h
        exact hword h
      · have ih := not_isWideGap_getLast? inFlow indent limit gap' stop' broken' c' (d := d)
        rw [List.getLast?_append] at h
        rcases Option.or_eq_some_iff.mp h with h | ⟨-, h⟩
        · exact ih h
        · exact hword h

/-- A plain scalar starts with the character at the cursor. -/
theorem head?_readPlainWords (inFlow : Bool) (indent limit : Nat) (stop : Mark) (broken : Bool)
    (c : Cursor) {d : Char}
    (h : (readPlainWords inFlow indent limit [] stop broken c).1.head? = some d) : c.here = d := by
  cases limit with
  | zero => cases h
  | succ limit =>
    obtain he | ⟨rest, he, hne, -⟩ := exists_readPlainWords inFlow indent limit [] stop broken c
    · rw [he] at h
      cases h
    · obtain ⟨tail, htail⟩ := plainWord_isPrefix inFlow c.rest
      rw [he, List.nil_append, List.head?_append_of_ne_nil _ hne] at h
      unfold Cursor.here Cursor.ahead
      rw [← htail, List.getD_eq_getElem?_getD, ← List.head?_eq_getElem?, List.head?_append_of_ne_nil _ hne, h]
      rfl

/-- What is read where no anchor, alias or tag starts is the text of a plain scalar. -/
theorem isPlainText_readPlain (inFlow : Bool) (outer : Option Nat) {c : Cursor}
    (hc : c.here ∉ ['!', '&', '*']) {text : String}
    (h : (readPlain inFlow outer c).1 = .scalar text true) : IsPlainText text := by
  unfold readPlain at h
  dsimp only at h
  obtain ⟨rfl, -⟩ := TokenKind.scalar.inj h
  refine ⟨?_, ?_⟩
  · rw [String.toList_ofList]
    intro hlast
    exact absurd (not_isWideGap_getLast? _ _ _ _ _ _ _ hlast) (by decide)
  · have hstart : ∀ d ∈ ['!', '&', '*'], String.ofList (readPlainWords inFlow
        ((outer.map (· + 1)).getD 0) (c.rest.length + 1) [] c.mark false c).1 ≠ String.ofList [d] := by
      intro d hd he
      have hhere := head?_readPlainWords _ _ _ _ _ _ (congrArg List.head? (String.ofList_injective he))
      exact hc (hhere ▸ hd)
    intro hmem
    rcases List.mem_cons.mp hmem with he | hmem
    · exact hstart '!' (by decide) he
    rcases List.mem_cons.mp hmem with he | hmem
    · exact hstart '&' (by decide) he
    · exact hstart '*' (by decide) (List.mem_singleton.mp hmem)

/-! ## Tokens -/

/-- If the token is a plain scalar, then its text is that of one. -/
def Legible (kind : TokenKind) : Prop :=
  ∀ text, kind = .scalar text true → IsPlainText text

theorem ensures_readQuoted (c : Cursor) : Ensures (readQuoted c) fun r => Legible r.1 :=
  Ensures.bind (ensures_any _) fun _ _ => ensures_pure (by rintro text ⟨⟩)

theorem ensures_readTag (c : Cursor) : Ensures (readTag c) fun r => Legible r.1 := by
  refine Ensures.bind (ensures_any _) fun r _ => ?_
  dsimp only
  split
  · exact ensures_pure (by rintro text ⟨⟩)
  · exact ensures_error _

theorem ensures_readBlock (folding : Bool) (outer : Option Nat) (c : Cursor) :
    Ensures (readBlock folding outer c) fun r => Legible r.1 :=
  Ensures.bind (ensures_any _) fun _ _ => Ensures.bind (ensures_any _) fun _ _ =>
    ensures_pure (by rintro text ⟨⟩)

namespace Lexer

variable {l l' : Lexer}

/-- All tokens that are not given out yet are legible. -/
def IsLegible (l : Lexer) : Prop :=
  ∀ token ∈ l.queue, Legible token.kind

/-- Another lexer at the same place, with the same tokens. -/
structure SamePlace (l l' : Lexer) : Prop where
  queue : l'.queue = l.queue
  cursor : l'.cursor = l.cursor

theorem SamePlace.isLegible (h : SamePlace l l') (hl : l.IsLegible) : l'.IsLegible := by
  unfold IsLegible
  rw [h.queue]
  exact hl

theorem ensures_dropStale (l : Lexer) : Ensures l.dropStale (SamePlace l) := by
  unfold dropStale
  split
  · exact ensures_error _
  · exact ensures_ok ⟨rfl, rfl⟩

theorem ensures_dropKey (l : Lexer) : Ensures l.dropKey (SamePlace l) := by
  unfold dropKey
  split
  · split
    · exact ensures_error _
    · exact ensures_ok ⟨rfl, rfl⟩
  · exact ensures_ok ⟨rfl, rfl⟩

theorem ensures_saveKey (l : Lexer) : Ensures l.saveKey (SamePlace l) := by
  unfold saveKey
  split
  · exact (ensures_dropKey l).bind fun l' h => ensures_pure ⟨h.queue, h.cursor⟩
  · exact ensures_ok ⟨rfl, rfl⟩

theorem IsLegible.push (h : l.IsLegible) {kind : TokenKind} (hk : Legible kind) (start stop : Mark) :
    (l.push kind start stop).IsLegible := by
  intro token htoken
  rcases List.mem_append.mp htoken with htoken | htoken
  · exact h token htoken
  · cases List.mem_singleton.mp htoken
    exact hk

theorem IsLegible.pushWide (h : l.IsLegible) {kind : TokenKind} (hk : Legible kind) (n : Nat) :
    (l.pushWide kind n).IsLegible :=
  h.push hk _ _

theorem IsLegible.insertAt (h : l.IsLegible) (number : Nat) {token : Token} (hk : Legible token.kind) :
    (l.insertAt number token).IsLegible := by
  intro other hother
  rcases List.mem_append.mp hother with hother | hother
  · exact h other (List.mem_of_mem_take hother)
  · rcases List.mem_cons.mp hother with rfl | hother
    · exact hk
    · exact h other (List.mem_of_mem_drop hother)

theorem IsLegible.closeBlocks (h : l.IsLegible) (column : Option Nat) :
    (l.closeBlocks column).IsLegible := by
  unfold Lexer.closeBlocks
  split
  · exact h
  · intro token htoken
    rcases List.mem_append.mp htoken with htoken | htoken
    · exact h token htoken
    · obtain ⟨_, -, rfl⟩ := List.mem_map.mp htoken
      rintro text ⟨⟩

theorem IsLegible.openBlock (h : l.IsLegible) {kind : TokenKind} (hk : Legible kind) :
    (l.openBlock kind).IsLegible := by
  unfold Lexer.openBlock
  dsimp only
  split
  · exact h.push hk _ _
  · exact h

theorem IsLegible.confirmKey (h : l.IsLegible) (key : PendingKey) : (l.confirmKey key).IsLegible := by
  have hkey : Legible (Token.mk .key key.mark key.mark).kind := by rintro text ⟨⟩
  have hmapping : Legible .blockMappingStart := by rintro text ⟨⟩
  have hinserted := h.insertAt key.number hkey
  unfold Lexer.confirmKey
  dsimp only
  split
  · exact hinserted.insertAt _ hmapping
  · exact hinserted

theorem isLegible_skipGap : ∀ (limit : Nat) {l : Lexer}, l.IsLegible → (skipGap limit l).IsLegible
  | 0, l, h => h
  | limit + 1, l, h => by
    rw [skipGap]
    generalize (if (l.cursor.skipWhile (· == ' ')).here == '#' then
      (l.cursor.skipWhile (· == ' ')).skipWhile (!isBreakOrEnd ·)
      else l.cursor.skipWhile (· == ' ')) = c
    split
    · exact isLegible_skipGap limit h
    · exact h

theorem ensures_closeAll (h : l.IsLegible) : Ensures l.closeAll IsLegible :=
  (ensures_dropKey _).bind fun _ hk => ensures_pure (hk.isLegible (h.closeBlocks none))

theorem ensures_openBlockHere (h : l.IsLegible) {kind : TokenKind} (hk : Legible kind)
    (complaint : Problem) : Ensures (l.openBlockHere kind complaint) IsLegible := by
  unfold openBlockHere
  split
  · exact ensures_ok h
  · split
    · exact ensures_ok (h.openBlock hk)
    · exact ensures_error _

theorem ensures_readEnd (h : l.IsLegible) : Ensures l.readEnd IsLegible :=
  (ensures_closeAll h).bind fun _ hl => ensures_pure (hl.push (by rintro text ⟨⟩) _ _)

theorem ensures_readDirectiveLine (h : l.IsLegible) : Ensures l.readDirectiveLine IsLegible :=
  (ensures_closeAll h).bind fun _ hl => Ensures.bind (ensures_any _) fun _ _ =>
    ensures_pure (hl.push (by rintro text ⟨⟩) _ _)

theorem ensures_readSeparator (h : l.IsLegible) {kind : TokenKind} (hk : Legible kind) :
    Ensures (l.readSeparator kind) IsLegible :=
  (ensures_closeAll h).bind fun _ hl => ensures_pure (hl.pushWide hk 3)

theorem ensures_readOpening (h : l.IsLegible) {kind : TokenKind} (hk : Legible kind) :
    Ensures (l.readOpening kind) IsLegible :=
  (ensures_saveKey l).bind fun _ hs => ensures_pure ((hs.isLegible h).pushWide hk 1)

theorem ensures_readClosing (h : l.IsLegible) {kind : TokenKind} (hk : Legible kind) :
    Ensures (l.readClosing kind) IsLegible :=
  (ensures_dropKey l).bind fun _ hd => ensures_pure ((hd.isLegible h).pushWide hk 1)

theorem ensures_readComma (h : l.IsLegible) : Ensures l.readComma IsLegible :=
  (ensures_dropKey l).bind fun _ hd =>
    ensures_pure ((hd.isLegible h).pushWide (by rintro text ⟨⟩) 1)

theorem ensures_readDash (h : l.IsLegible) : Ensures l.readDash IsLegible :=
  (ensures_openBlockHere h (by rintro text ⟨⟩) _).bind fun l' hl => (ensures_dropKey l').bind fun _ hd =>
    ensures_pure ((hd.isLegible hl).pushWide (by rintro text ⟨⟩) 1)

theorem ensures_readQuestion (h : l.IsLegible) : Ensures l.readQuestion IsLegible :=
  (ensures_openBlockHere h (by rintro text ⟨⟩) _).bind fun l' hl => (ensures_dropKey l').bind fun _ hd =>
    ensures_pure ((hd.isLegible hl).pushWide (by rintro text ⟨⟩) 1)

theorem ensures_readColon (h : l.IsLegible) : Ensures l.readColon IsLegible := by
  have hvalue : Legible .value := by rintro text ⟨⟩
  unfold readColon
  split
  · exact ensures_pure ((h.confirmKey _).pushWide hvalue 1)
  · exact (ensures_openBlockHere h (by rintro text ⟨⟩) _).bind fun l hl =>
      ensures_pure (IsLegible.pushWide (l := { l with keyAllowed := !l.inFlow }) hl hvalue 1)

theorem ensures_readBlockScalar (h : l.IsLegible) (folding : Bool) :
    Ensures (l.readBlockScalar folding) IsLegible :=
  (ensures_dropKey l).bind fun _ hd => (ensures_readBlock folding _ _).bind fun _ hr =>
    ensures_pure ((hd.isLegible h).push hr _ _)

theorem ensures_readKeyable {read : Cursor → Except Trouble (TokenKind × Cursor)} (h : l.IsLegible)
    (hread : ∀ c, Ensures (read c) fun r => Legible r.1) : Ensures (l.readKeyable read) IsLegible :=
  (ensures_saveKey l).bind fun _ hs => (hread _).bind fun _ hr =>
    ensures_pure ((hs.isLegible h).push hr _ _)

theorem ensures_readPlainScalar (h : l.IsLegible) (hc : l.cursor.here ∉ ['!', '&', '*']) :
    Ensures l.readPlainScalar IsLegible := by
  refine (ensures_saveKey l).bind fun l' hs => ensures_pure ((hs.isLegible h).push ?_ _ _)
  exact fun text ht => isPlainText_readPlain _ _ (by rwa [hs.cursor]) ht

/-- One step of the lexer. -/
theorem ensures_fetch (h : l.IsLegible) : Ensures l.fetch IsLegible := by
  have hskip : l.skipToToken.IsLegible := isLegible_skipGap _ h
  refine (ensures_dropStale _).bind fun l₁ h₁ => ?_
  have hl := (h₁.isLegible hskip).closeBlocks (some l₁.cursor.mark.column)
  generalize l₁.closeBlocks (some l₁.cursor.mark.column) = l at hl
  dsimp only
  split
  · exact ensures_readEnd hl
  · exact ensures_readOpening hl (by rintro text ⟨⟩)
  · exact ensures_readOpening hl (by rintro text ⟨⟩)
  · exact ensures_readClosing hl (by rintro text ⟨⟩)
  · exact ensures_readClosing hl (by rintro text ⟨⟩)
  · exact ensures_readComma hl
  · exact ensures_readKeyable hl fun c =>
      Ensures.bind (ensures_any _) fun _ _ => ensures_pure (by rintro text ⟨⟩)
  · exact ensures_readKeyable hl fun c =>
      Ensures.bind (ensures_any _) fun _ _ => ensures_pure (by rintro text ⟨⟩)
  · exact ensures_readKeyable hl ensures_readTag
  · exact ensures_readKeyable hl ensures_readQuoted
  · exact ensures_readKeyable hl ensures_readQuoted
  · next halias hanchor htag _ _ =>
    -- The last case of the first character is that of the tokens which do not start with a bracket, a
    -- quote or an indicator.
    have hhere : l.cursor.here ∉ ['!', '&', '*'] := by
      simp only [List.mem_cons, List.not_mem_nil, or_false, not_or]
      exact ⟨htag, hanchor, halias⟩
    split
    · exact ensures_readDirectiveLine hl
    split
    · exact ensures_readSeparator hl (by rintro text ⟨⟩)
    split
    · exact ensures_readSeparator hl (by rintro text ⟨⟩)
    split
    · exact ensures_readDash hl
    split
    · exact ensures_readQuestion hl
    split
    · exact ensures_readColon hl
    split
    · exact ensures_readBlockScalar hl _
    split
    · exact ensures_readPlainScalar hl hhere
    · exact ensures_error _

/-- The whole walk of the lexer. -/
theorem legible_of_mem_run : ∀ (limit : Nat) {l : Lexer}, l.IsLegible →
    ∀ token ∈ (run limit l).tokens, Legible token.kind
  | 0, l, h, token, htoken => h token htoken
  | limit + 1, l, h, token, htoken => by
    rw [run] at htoken
    cases hfetch : l.fetch with
    | error trouble =>
      rw [hfetch] at htoken
      cases htoken
    | ok l₁ =>
      have h₁ := ensures_fetch h l₁ hfetch
      rw [hfetch, TokenStream.after] at htoken
      dsimp only at htoken
      split at htoken
      · exact h₁ token htoken
      · cases hstale : l₁.dropStale with
        | error trouble =>
          rw [hstale] at htoken
          cases htoken
        | ok l₂ =>
          have h₂ := (ensures_dropStale l₁ l₂ hstale).isLegible h₁
          rw [hstale, TokenStream.after] at htoken
          rcases List.mem_append.mp htoken with htoken | htoken
          · exact h₂ token (List.mem_of_mem_take htoken)
          · refine legible_of_mem_run limit ?_ token htoken
            exact fun other hother => h₂ other (List.mem_of_mem_drop hother)

end Lexer

/-- **The texts of plain scalars.** They do not end in a line feed, and are no indicators. -/
theorem isPlainText_of_ofText {text : List Char} {token : Token}
    (h : token ∈ (TokenStream.ofText text).tokens) {t : String} (ht : token.kind = .scalar t true) :
    IsPlainText t := by
  unfold TokenStream.ofText at h
  split at h
  · cases h
  · have hstart : Lexer.IsLegible { cursor := { rest := text } } := List.forall_mem_nil _
    exact Lexer.legible_of_mem_run _ hstart token h t ht

end Componentry.Yaml

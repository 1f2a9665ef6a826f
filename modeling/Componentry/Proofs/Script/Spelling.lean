import Componentry.Proofs.Script.Printable
import Componentry.Proofs.Script.Token

/-!
# The tokens of printed expressions

`expressionTokens` says which tokens the text of an expression is made of: its indentation and its
line breaks are gone, its parentheses are there.

**Main statement.** At every level the text of a legible expression is read as these tokens, and
they stay apart from what follows (`spells_expressionText`).  A legible expression holds names that
are names, integers with few enough digits, operators of the table, and keys that are printed as
they are; numbers have no members.
-/

namespace Componentry.Script

/-! ## Tokens of a tree -/

/-- Tokens in parentheses if `p` holds. -/
def parenthesizedTokens (p : Bool) (ts : List Token) : List Token :=
  if p then .mark "(" :: (ts ++ [.mark ")"]) else ts

mutual

/-- The tokens of an expression or a property. -/
def expressionTokens : Node → List Token
  | .name n => [.word n]
  | .text s => [.text s]
  | .number (.int n) => if n < 0 then [.mark "-", .number n.natAbs] else [.number n.natAbs]
  | .bool b => [.word (if b then "true" else "false")]
  | .null => [.word "null"]
  | .member object property =>
    parenthesizedTokens object.isLoose (expressionTokens object) ++
      .mark "." :: expressionTokens property
  | .call callee arguments =>
    parenthesizedTokens callee.isLoose (expressionTokens callee) ++
      .mark "(" :: (listTokens arguments ++ [.mark ")"])
  | .binary operator left right =>
    parenthesizedTokens (left.needsParentheses operator true) (expressionTokens left) ++
      .mark operator :: parenthesizedTokens (right.needsParentheses operator false)
        (expressionTokens right)
  | .arrow params (.block _) =>
    .mark "(" :: (listTokens params ++ [.mark ")", .mark "=>", .mark "\x7b", .mark "\x7d"])
  | .arrow params body =>
    .mark "(" :: (listTokens params ++
      .mark ")" :: .mark "=>" :: parenthesizedTokens body.isObject (expressionTokens body))
  | .array elements => .mark "[" :: (listTokens elements ++ [.mark "]"])
  | .property key value => expressionTokens key ++ .mark ":" :: expressionTokens value
  | .object properties => .mark "\x7b" :: (listTokens properties ++ [.mark "\x7d"])
  | _ => []

/-- The tokens of expressions or properties with commas between them. -/
def listTokens : List Node → List Token
  | [] => []
  | [e] => expressionTokens e
  | e :: rest => expressionTokens e ++ .mark "," :: listTokens rest

end

/-! ## Legible expressions -/

/-- Whether a node may stand before a member access or a call. -/
def Node.isHead : Node → Bool
  | .name _ | .member _ _ | .call _ _ | .binary _ _ _ | .arrow _ _ => true
  | _ => false

/-- Whether a node is a key that is printed as it is: a name, or a text that counts as no name. -/
def Node.isKey : Node → Bool
  | .name n => isName n.toList
  | .text s => !Text.isIdentifierName s
  | _ => false

/-- A property for each key and value. -/
def properties (entries : List (Node × Node)) : List Node :=
  entries.map fun entry => .property entry.1 entry.2

/-- The expressions whose text is cut into tokens the way it was put together. -/
inductive Legible : Node → Prop
  | name {n : String} (h : isName n.toList = true) : Legible (.name n)
  | text (s : String) : Legible (.text s)
  | number {n : Int} (h : fewDigits n) : Legible (.number (.int n))
  | bool (b : Bool) : Legible (.bool b)
  | null : Legible .null
  | member {object : Node} {p : String} (ho : object.isHead = true) (hp : isName p.toList = true)
    (h : Legible object) : Legible (.member object (.name p))
  | call {callee : Node} {arguments : List Node} (h : Legible callee)
    (ha : ∀ a ∈ arguments, Legible a) : Legible (.call callee arguments)
  | binary {operator : String} {left right : Node} (ho : precedence operator ≤ 10)
    (hl : Legible left) (hr : Legible right) : Legible (.binary operator left right)
  | arrowBlock {params : List String} (hp : ∀ p ∈ params, isName p.toList = true) :
    Legible (.arrow (params.map .name) (.block []))
  | arrow {params : List String} {body : Node} (hp : ∀ p ∈ params, isName p.toList = true)
    (h : Legible body) : Legible (.arrow (params.map .name) body)
  | array {elements : List Node} (h : ∀ e ∈ elements, Legible e) : Legible (.array elements)
  | object {entries : List (Node × Node)} (hk : ∀ entry ∈ entries, entry.1.isKey = true)
    (h : ∀ entry ∈ entries, Legible entry.2) : Legible (.object (properties entries))

/-- What may follow the text of an expression.  A point may not, where the text could end in a
number. -/
def Node.next : Node → Char → Bool
  | .number _ | .binary _ _ _ | .arrow _ _ => afterNumber
  | _ => afterName

theorem afterName_of_afterNumber {c : Char} (h : afterNumber c = true) : afterName c = true := by
  simp only [afterNumber, Bool.and_eq_true] at h
  exact h.1

theorem Node.next_of_afterNumber (e : Node) {c : Char} (h : afterNumber c = true) :
    e.next c = true := by
  unfold Node.next
  split
  all_goals first | exact h | exact afterName_of_afterNumber h

/-! ## Pieces -/

/-- A mark at the end of a text or before a blank. -/
theorem spells_markBeforeBlank {c : Char} {s : List Char} {m : String}
    (hc : isSpace c = false ∧ isNameStart c = false ∧ c.isDigit = false ∧ c ≠ '"' ∧ c ≠ '\'')
    (hend : startsComment (c :: (s ++ [])) = false ∧ mark? (c :: (s ++ [])) = some (m, []))
    (hblank : ∀ rest, startsComment (c :: (s ++ ' ' :: rest)) = false ∧
      mark? (c :: (s ++ ' ' :: rest)) = some (m, ' ' :: rest)) :
    Spells (· == ' ') (c :: s) [.mark m] := by
  refine spells_mark hc fun rest hrest => ?_
  match rest, hrest with
  | [], _ => exact hend
  | d :: rest, hd =>
    have hd : d = ' ' := by simpa using hd
    subst hd
    exact hblank rest

/-- An operator before a blank. -/
theorem spells_operator {operator : String} (h : precedence operator ≤ 10) :
    Spells (· == ' ') operator.toList [.mark operator] := by
  unfold precedence at h
  split at h
  -- behind each operator of the table the blank rules out the longer marks that start with it
  all_goals first
    | exact absurd h (by decide)
    | exact spells_markBeforeBlank (by decide) ⟨rfl, rfl⟩ (fun _ => ⟨rfl, rfl⟩)

namespace Spells

variable {p : Char → Bool} {s : List Char} {ts : List Token}

/-- A text between brackets. -/
theorem enclosed {o c : Char} (ho : o ∈ brackets) (hc : c ∈ brackets) (h : Spells p s ts)
    (hp : p c = true) :
    Spells anyNext (o :: (s ++ [c]))
      (.mark (String.ofList [o]) :: (ts ++ [.mark (String.ofList [c])])) :=
  (spells_bracket ho).after (h.append_cons (spells_bracket hc) hp)

/-- A text in parentheses, if it has to be. -/
theorem parenthesizedIf {text : String} (h : Spells p text.toList ts) (hp : p ')' = true) (b : Bool) :
    Spells p (Script.parenthesizedIf b text).toList (parenthesizedTokens b ts) := by
  cases b with
  | false => exact h
  | true =>
    have he := (h.enclosed (o := '(') (c := ')') (by decide) (by decide) hp).mono
      (q := p) (fun _ _ => rfl)
    simpa [Script.parenthesizedIf, parenthesized, parenthesizedTokens] using he

/-- A mark between blanks. -/
theorem spaced {m : String} (h : Spells (· == ' ') m.toList [.mark m]) :
    Spells anyNext (' ' :: (m.toList ++ [' '])) [.mark m] :=
  have hs : Spells anyNext [' '] [] := space (by decide)
  hs.after (h.append_cons hs (by decide))

end Spells

theorem spells_arrow : Spells anyNext " => ".toList [.mark "=>"] := by
  have h : Spells (· == ' ') "=>".toList [.mark "=>"] :=
    spells_markBeforeBlank (by decide) ⟨rfl, rfl⟩ (fun _ => ⟨rfl, rfl⟩)
  exact h.spaced

theorem spells_indent (level : Int) : Spells anyNext (indent level).toList [] := by
  refine Spells.space (List.all_eq_true.mpr fun c hc => ?_)
  rw [indent, String.toList_ofList] at hc
  rw [List.eq_of_mem_replicate hc]
  decide

/-- Texts with commas between them. -/
theorem spells_joined (sep : String) {blank : List Char} (hsep : sep.toList = ',' :: blank)
    (hblank : blank.all isSpace = true) : ∀ {texts : List String} {es : List Node},
    List.Forall₂ (fun text e => Spells afterNumber text.toList (expressionTokens e)) texts es →
    Spells afterNumber (Text.joined sep texts).toList (listTokens es)
  | [], [], _ => Spells.nil.mono (fun _ _ => rfl)
  | [text], [e], .cons h _ => h
  | text :: text' :: texts, e :: e' :: es, .cons h hs => by
    have hcomma : Spells anyNext (',' :: blank) [.mark ","] :=
      (spells_bracket (c := ',') (by decide)).after (Spells.space hblank)
    have hrest := spells_joined sep hsep hblank hs
    have h2 := h.append_cons (hcomma.after hrest) (by decide)
    simpa [Text.joined, listTokens, hsep] using h2

/-! ## Expressions -/

/-- At every level the expression has a text, and that text spells its tokens. -/
def Readable (annotated : Bool) (e : Node) : Prop :=
  ∀ level : Int, ∃ text, expressionText annotated level e = .ok text ∧
    Spells e.next text.toList (expressionTokens e)

variable {annotated : Bool}

theorem expressionTexts_of_readable (level : Int) : ∀ {es : List Node},
    (∀ e ∈ es, Readable annotated e) → ∃ texts, expressionTexts annotated level es = .ok texts ∧
      List.Forall₂ (fun text e => Spells afterNumber text.toList (expressionTokens e)) texts es
  | [], _ => ⟨[], by rw [expressionTexts], .nil⟩
  | e :: es, h => by
    obtain ⟨text, ht, hs⟩ := h e List.mem_cons_self level
    obtain ⟨texts, hts, hss⟩ := expressionTexts_of_readable level
      (fun e' he' => h e' (List.mem_cons_of_mem _ he'))
    refine ⟨text :: texts, ?_, .cons (hs.mono (fun _ => e.next_of_afterNumber)) hss⟩
    rw [expressionTexts, ht, hts]
    rfl

/-- A key spells one token. -/
theorem spells_key {key : Node} (h : key.isKey = true) :
    ∃ text, key.keyText = .ok text ∧ Spells afterName text.toList (expressionTokens key) := by
  match key, h with
  | .name n, h => exact ⟨n, rfl, spells_word h⟩
  | .text s, h =>
    have hs : Text.isIdentifierName s = false := by simpa [Node.isKey] using h
    refine ⟨Text.quoted s, ?_, (spells_quoted s).mono (fun _ _ => rfl)⟩
    rw [Node.keyText, hs]
    rfl

theorem propertyTexts_of_readable (level : Int) : ∀ {entries : List (Node × Node)},
    (∀ entry ∈ entries, entry.1.isKey = true) → (∀ entry ∈ entries, Readable annotated entry.2) →
    ∃ texts, propertyTexts annotated level (properties entries) = .ok texts ∧
      List.Forall₂ (fun text e => Spells afterNumber text.toList (expressionTokens e)) texts
        (properties entries)
  | [], _, _ => ⟨[], by rw [properties, List.map_nil, propertyTexts], .nil⟩
  | (key, value) :: entries, hk, h => by
    obtain ⟨keyText, hkt, hks⟩ := spells_key (hk (key, value) List.mem_cons_self)
    obtain ⟨text, ht, hs⟩ := h (key, value) List.mem_cons_self level
    obtain ⟨texts, hts, hss⟩ := propertyTexts_of_readable level
      (fun entry he => hk entry (List.mem_cons_of_mem _ he))
      (fun entry he => h entry (List.mem_cons_of_mem _ he))
    refine ⟨(indent level ++ keyText ++ ": " ++ text) :: texts, ?_, .cons ?_ hss⟩
    · rw [properties, List.map_cons, propertyTexts, ← properties, hts, propertyText, hkt, ht]
      rfl
    · have hcolon : Spells anyNext (':' :: [' ']) [.mark ":"] :=
        (spells_bracket (c := ':') (by decide)).after (Spells.space (by decide))
      have hvalue := hs.mono (fun _ => value.next_of_afterNumber)
      have hline := (spells_indent level).after
        (hks.append_cons (hcolon.after hvalue) (by decide))
      simpa [expressionTokens] using hline

/-- The parameters of an arrow function in their parentheses. -/
theorem spells_parameters {params : List String} (h : ∀ p ∈ params, isName p.toList = true) :
    Spells anyNext (parenthesized (Text.joined ", " params)).toList
      (.mark "(" :: (listTokens (params.map .name) ++ [.mark ")"])) := by
  have hparts : List.Forall₂ (fun text e => Spells afterNumber text.toList (expressionTokens e))
      params (params.map .name) := by
    rw [List.forall₂_map_right_iff, List.forall₂_same]
    exact fun p hp => (spells_word (h p hp)).mono (fun _ => afterName_of_afterNumber)
  have hjoined := spells_joined ", " rfl (by decide) hparts
  have he := hjoined.enclosed (o := '(') (c := ')') (by decide) (by decide) (by decide)
  simpa [parenthesized] using he

theorem readable_number {n : Int} (h : fewDigits n) : Readable annotated (.number (.int n)) := by
  intro level
  have hlimit : ¬ Text.digitLimit < n.natAbs.repr.length := Nat.not_lt.mpr h
  by_cases hn : n < 0
  · refine ⟨"-" ++ n.natAbs.repr, ?_, ?_⟩
    · simp [expressionText, Number.text, integerText, Text.integerText?, hlimit, hn]
    · obtain ⟨c, cs, hd, hc⟩ := exists_toList_repr n.natAbs
      have hnumber := spells_number n.natAbs
      rw [hd] at hnumber
      have h2 := spells_minus.append_cons hnumber hc
      rw [String.toList_append, hd, expressionTokens, if_pos hn]
      exact h2
  · refine ⟨n.natAbs.repr, ?_, ?_⟩
    · simp [expressionText, Number.text, integerText, Text.integerText?, hlimit, hn]
    · rw [expressionTokens, if_neg hn]
      exact spells_number n.natAbs

/-- Before a member access every text ends in a name or a parenthesis. -/
theorem spells_object {object : Node} {text : String} (ho : object.isHead = true)
    (hs : Spells object.next text.toList (expressionTokens object)) :
    Spells afterName (parenthesizedIf object.isLoose text).toList
      (parenthesizedTokens object.isLoose (expressionTokens object)) := by
  match object, ho with
  | .name _, _ | .member _ _, _ | .call _ _, _ => exact hs
  | .binary _ _ _, _ | .arrow _ _, _ =>
    have hclose : afterNumber ')' = true := by decide
    have he := hs.enclosed (o := '(') (c := ')') (by decide) (by decide) hclose
    simpa [Node.isLoose, parenthesizedIf, parenthesized, parenthesizedTokens]
      using he.mono (q := afterName) (fun _ _ => rfl)

theorem readable_member {object : Node} {p : String} (ho : object.isHead = true)
    (hp : isName p.toList = true) (h : Readable annotated object) :
    Readable annotated (.member object (.name p)) := by
  intro level
  obtain ⟨text, ht, hs⟩ := h level
  refine ⟨parenthesizedIf object.isLoose text ++ "." ++ p, ?_, ?_⟩
  · rw [expressionText, ht]
    rfl
  · have hname : Spells afterName ('.' :: p.toList) [.mark ".", .word p] := by
      have hword := spells_word hp
      cases hcs : p.toList with
      | nil =>
        rw [hcs] at hp
        cases hp
      | cons c cs =>
        rw [hcs] at hp hword
        simp only [isName, Bool.and_eq_true] at hp
        exact spells_dot.append_cons hword hp.1
    have h2 := (spells_object ho hs).append_cons hname (by decide)
    simpa [expressionTokens, Node.next] using h2

theorem readable_call {callee : Node} {arguments : List Node} (h : Readable annotated callee)
    (ha : ∀ a ∈ arguments, Readable annotated a) : Readable annotated (.call callee arguments) := by
  intro level
  obtain ⟨text, ht, hs⟩ := h level
  obtain ⟨texts, hts, hss⟩ := expressionTexts_of_readable level ha
  refine ⟨parenthesizedIf callee.isLoose text ++ parenthesized (Text.joined ", " texts), ?_, ?_⟩
  · rw [expressionText, ht, hts]
    rfl
  · have hcallee := (hs.mono (fun _ => callee.next_of_afterNumber)).parenthesizedIf (by decide)
      callee.isLoose
    have hjoined := spells_joined ", " rfl (by decide) hss
    have hargs := hjoined.enclosed (o := '(') (c := ')') (by decide) (by decide) (by decide)
    have h2 := (hcallee.append_cons hargs (by decide)).mono (q := afterName) (fun _ _ => rfl)
    simpa [expressionTokens, parenthesized, Node.next] using h2

theorem readable_binary {operator : String} {left right : Node} (ho : precedence operator ≤ 10)
    (hl : Readable annotated left) (hr : Readable annotated right) :
    Readable annotated (.binary operator left right) := by
  intro level
  obtain ⟨l, hlt, hls⟩ := hl level
  obtain ⟨r, hrt, hrs⟩ := hr level
  refine ⟨parenthesizedIf (left.needsParentheses operator true) l ++ " " ++ operator ++ " " ++
    parenthesizedIf (right.needsParentheses operator false) r, ?_, ?_⟩
  · rw [expressionText, hlt, hrt]
    rfl
  · have hleft := (hls.mono (fun _ => left.next_of_afterNumber)).parenthesizedIf (by decide)
      (left.needsParentheses operator true)
    have hright := (hrs.mono (fun _ => right.next_of_afterNumber)).parenthesizedIf (by decide)
      (right.needsParentheses operator false)
    have h2 := hleft.append_cons ((spells_operator ho).spaced.after hright) (by decide)
    simpa [expressionTokens, Node.next] using h2

theorem readable_arrowBlock {params : List String} (hp : ∀ p ∈ params, isName p.toList = true) :
    Readable annotated (.arrow (params.map .name) (.block [])) := by
  intro level
  refine ⟨parenthesized (Text.joined ", " params) ++ " => " ++ "\x7b\x7d", ?_, ?_⟩
  · rw [expressionText, mapM_nameText, statementTexts]
    rfl
  · have hblock := Spells.nil.enclosed (o := '\x7b') (c := '\x7d') (by decide) (by decide) rfl
    have h2 := (spells_parameters hp).after (spells_arrow.after hblock)
    simpa [expressionTokens, Node.next] using h2.mono (q := afterNumber) (fun _ _ => rfl)

theorem Legible.ne_block {e : Node} (h : Legible e) : ∀ body, e = .block body → False := by
  intro body hb
  subst hb
  cases h

theorem readable_arrow {params : List String} {body : Node} (hb : Legible body)
    (hp : ∀ p ∈ params, isName p.toList = true) (h : Readable annotated body) :
    Readable annotated (.arrow (params.map .name) body) := by
  intro level
  obtain ⟨text, ht, hs⟩ := h level
  refine ⟨parenthesized (Text.joined ", " params) ++ " => " ++ parenthesizedIf body.isObject text,
    ?_, ?_⟩
  · rw [expressionText, mapM_nameText, ht]
    · rfl
    · exact hb.ne_block
  · have hbody := (hs.mono (fun _ => body.next_of_afterNumber)).parenthesizedIf (by decide)
      body.isObject
    have h2 := (spells_parameters hp).after (spells_arrow.after hbody)
    rw [expressionTokens]
    · simpa [Node.next] using h2
    · exact hb.ne_block

theorem readable_array {elements : List Node} (h : ∀ e ∈ elements, Readable annotated e) :
    Readable annotated (.array elements) := by
  intro level
  obtain ⟨texts, hts, hss⟩ := expressionTexts_of_readable level h
  refine ⟨"[" ++ Text.joined ", " texts ++ "]", ?_, ?_⟩
  · rw [expressionText, hts]
    rfl
  · have hjoined := spells_joined ", " rfl (by decide) hss
    have h2 := hjoined.enclosed (o := '[') (c := ']') (by decide) (by decide) (by decide)
    simpa [expressionTokens, Node.next] using h2.mono (q := afterName) (fun _ _ => rfl)

/-- The entries of an object on lines of their own, between braces. -/
theorem spells_objectText {texts : List String} {ts : List Token} (level : Int)
    (h : Spells afterNumber (Text.joined ",\n" texts).toList ts) (hnil : texts = [] → ts = []) :
    Spells anyNext (objectText level texts).toList (.mark "\x7b" :: (ts ++ [.mark "\x7d"])) := by
  match texts, h, hnil with
  | [], _, hnil =>
    have he := Spells.nil.enclosed (o := '\x7b') (c := '\x7d') (by decide) (by decide) rfl
    rw [hnil rfl]
    simpa [objectText] using he
  | text :: texts, h, _ =>
    have hline : Spells anyNext ['\n'] [] := Spells.space (by decide)
    have hclose := (hline.after (spells_indent level)).after (spells_bracket (c := '\x7d') (by decide))
    have hopen := (spells_bracket (c := '\x7b') (by decide)).after hline
    have h2 := hopen.after (h.append_cons hclose (by decide))
    simpa [objectText] using h2

theorem readable_object {entries : List (Node × Node)}
    (hk : ∀ entry ∈ entries, entry.1.isKey = true)
    (h : ∀ entry ∈ entries, Readable annotated entry.2) :
    Readable annotated (.object (properties entries)) := by
  intro level
  obtain ⟨texts, hts, hss⟩ := propertyTexts_of_readable (level + 1) hk h
  refine ⟨objectText level texts, ?_, ?_⟩
  · rw [expressionText, hts]
    rfl
  · have hjoined := spells_joined ",\n" rfl (by decide) hss
    have hnil : texts = [] → listTokens (properties entries) = [] := by
      intro hnil
      rw [hnil, List.forall₂_nil_left_iff] at hss
      rw [hss, listTokens]
    rw [expressionTokens]
    exact (spells_objectText level hjoined hnil).mono (fun _ _ => rfl)

/-- **The text of a legible expression is read as its tokens, at every level.** -/
theorem spells_expressionText {e : Node} (h : Legible e) : Readable annotated e := by
  induction h with
  | name h => exact fun level => ⟨_, by rw [expressionText], spells_word h⟩
  | text s => exact fun level => ⟨_, by rw [expressionText], (spells_quoted s).mono (fun _ _ => rfl)⟩
  | number h => exact readable_number h
  | bool b =>
    cases b with
    | false => exact fun level => ⟨"false", by rw [expressionText]; rfl, spells_word (by decide)⟩
    | true => exact fun level => ⟨"true", by rw [expressionText]; rfl, spells_word (by decide)⟩
  | null => exact fun level => ⟨"null", by rw [expressionText], spells_word (by decide)⟩
  | member ho hp _ ih => exact readable_member ho hp ih
  | call _ _ ih iha => exact readable_call ih iha
  | binary ho _ _ ihl ihr => exact readable_binary ho ihl ihr
  | arrowBlock hp => exact readable_arrowBlock hp
  | arrow hp hb ih => exact readable_arrow hb hp ih
  | array _ ih => exact readable_array ih
  | object hk _ ih => exact readable_object hk ih

end Componentry.Script

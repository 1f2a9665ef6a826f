import Componentry.Proofs.Script.Spelling
import Componentry.Proofs.Script.Unambiguity

/-!
# Printing keeps the grouping

**Main statement.** At every level the text of an expression is read by the grammar as that
expression and as no other one (`readsAs_expressionText_iff`).

The text has just the tokens `expressionTokens` (`spells_expressionText`).  These are a phrase of the
category that the expression belongs to by its outermost node (`Expression.reads`); parentheses stand
wherever an operand belongs to a looser category than its place asks for.  The grammar is
unambiguous, and so the phrase has no other tree.

An integer with too many digits is not printed (`expressionText_of_not_fewDigits`), and a key that is a
word and a line feed is read as the word (`expressionText_not_kept`).
-/

namespace Componentry.Script

/-! ## Expressions -/

/-- Whether a text names a variable. -/
def isVariable (n : String) : Prop :=
  isName n.toList = true ∧ n ∉ reservedWords

/-- The expressions that printing keeps: names of variables, texts, integers that are not negative
and are written with few enough digits, truth values, null, lists, objects, calls, members,
operations and arrow functions. -/
inductive Expression : Node → Prop
  | name {n : String} (h : isVariable n) : Expression (.name n)
  | text (s : String) : Expression (.text s)
  | number {n : Nat} (h : fewDigits n) : Expression (.number (.int n))
  | bool (b : Bool) : Expression (.bool b)
  | null : Expression .null
  | array {elements : List Node} (h : ∀ e ∈ elements, Expression e) : Expression (.array elements)
  | object {entries : List (Node × Node)} (hk : ∀ entry ∈ entries, entry.1.isKey = true)
    (h : ∀ entry ∈ entries, Expression entry.2) : Expression (.object (properties entries))
  | call {callee : Node} {arguments : List Node} (hc : callee.isHead = true) (h : Expression callee)
    (ha : ∀ a ∈ arguments, Expression a) : Expression (.call callee arguments)
  | member {object : Node} {p : String} (ho : object.isHead = true) (hp : isName p.toList = true)
    (h : Expression object) : Expression (.member object (.name p))
  | binary {operator : String} {left right : Node} (ho : precedence operator ≤ 10)
    (hl : left.isObject = false) (hr : right.isObject = false) (h : Expression left)
    (h' : Expression right) : Expression (.binary operator left right)
  | arrow {params : List String} {body : Node} (hp : ∀ p ∈ params, isVariable p)
    (h : Expression body) : Expression (.arrow (params.map .name) body)
  | arrowBlock {params : List String} (hp : ∀ p ∈ params, isVariable p) :
    Expression (.arrow (params.map .name) (.block []))

theorem Expression.legible {e : Node} (h : Expression e) : Legible e := by
  induction h with
  | name h => exact .name h.1
  | text s => exact .text s
  | number h => exact .number h
  | bool b => exact .bool b
  | null => exact .null
  | array _ ih => exact .array ih
  | object hk _ ih => exact .object hk ih
  | call _ _ _ ih iha => exact .call ih iha
  | member ho hp _ ih => exact .member ho hp ih
  | binary ho _ _ _ _ ihl ihr => exact .binary ho ihl ihr
  | arrow hp _ ih => exact .arrow (fun p h => (hp p h).1) ih
  | arrowBlock hp => exact .arrowBlock fun p h => (hp p h).1

/-! ## Categories -/

/-- The category of an expression. -/
def Node.category : Node → Category
  | .member _ _ | .call _ _ => .leftHand
  | .binary operator _ _ => .binary (precedence operator)
  | .arrow _ _ => .assignment
  | _ => .primary

/-- The operators of the printer have the levels of the grammar. -/
theorem operatorLevel?_of_precedence {operator : String} (h : precedence operator ≤ 10) :
    operatorLevel? operator = some (precedence operator) := by
  -- the grammar has one operator more than the printer
  have hall : ∀ o ∈ operatorTable.flatten, o ≠ ">>>" → operatorLevel? o = some (precedence o) := by
    decide
  have hmem : operator ∈ operatorTable.flatten ∧ operator ≠ ">>>" := by
    unfold precedence at h
    split at h
    all_goals first
      | decide
      | exact absurd h (by decide)
  exact hall operator hmem.1 hmem.2

/-- A phrase of a binary level is one of every looser level. -/
theorem Reads.looser {j d : Nat} {ts : List Token} {e : Node} (h : Reads (.binary (j + d)) ts e)
    (hd : j + d ≤ 11) : Reads (.binary j) ts e := by
  induction d with
  | zero => exact h
  | succ d ih => exact ih (.ofTighter (by omega) h) (by omega)

/-- The categories whose phrases are operands at a level. -/
def Category.isOperand (k : Nat) : Category → Prop
  | .primary | .leftHand => True
  | .binary j => k ≤ j ∧ j ≤ 11
  | .assignment | .property => False

theorem Reads.operand {c : Category} {k : Nat} {ts : List Token} {e : Node} (h : Reads c ts e)
    (hc : c.isOperand k) (hk : k ≤ 11) : Reads (.binary k) ts e := by
  have htight : Reads .leftHand ts e → Reads (.binary k) ts e := by
    intro h
    obtain ⟨d, hd⟩ := Nat.exists_eq_add_of_le hk
    exact Reads.looser (hd ▸ Reads.ofLeftHand h) (Nat.le_of_eq hd.symm)
  cases c with
  | primary => exact htight (.ofPrimary h)
  | leftHand => exact htight h
  | binary j =>
    obtain ⟨d, rfl⟩ := Nat.exists_eq_add_of_le hc.1
    exact h.looser hc.2
  | assignment => exact hc.elim
  | property => exact hc.elim

/-! ## Parentheses -/

section Parentheses

variable {e : Node} {ts : List Token}

/-- Every expression is a phrase of the loosest category. -/
theorem Expression.toAssignment (he : Expression e) (h : Reads e.category ts e) :
    Reads .assignment ts e := by
  cases he with
  | arrow | arrowBlock => exact h
  | binary ho =>
    obtain ⟨h₁, h₂⟩ := operatorLevel?_le (operatorLevel?_of_precedence ho)
    exact .ofBinary (h.operand ⟨h₁, by omega⟩ (by decide))
  | _ => exact .ofBinary (h.operand trivial (by decide))

/-- An expression before a member access or a call. -/
theorem Expression.toLeftHand (he : Expression e) (h : Reads e.category ts e)
    (hh : e.isHead = true) : Reads .leftHand (parenthesizedTokens e.isLoose ts) e := by
  cases he with
  | name => exact .ofPrimary h
  | call | member => exact h
  | binary ho hl hr hx hy =>
    exact .ofPrimary (.grouped (Expression.toAssignment (.binary ho hl hr hx hy) h))
  | arrow hp hb => exact .ofPrimary (.grouped h)
  | arrowBlock hp => exact .ofPrimary (.grouped h)
  | _ => cases hh

/-- An expression beside an operator.  On the right hand side its level has to be tighter than the
one of the operator. -/
theorem Expression.toOperand (he : Expression e) (h : Reads e.category ts e) {operator : String}
    (ho : precedence operator ≤ 10) (isLeft : Bool) :
    Reads (.binary (precedence operator + if isLeft then 0 else 1))
      (parenthesizedTokens (e.needsParentheses operator isLeft) ts) e := by
  have hk : (precedence operator + if isLeft then 0 else 1) ≤ 11 := by
    split
    all_goals omega
  cases hp : e.needsParentheses operator isLeft with
  | true => exact (Reads.grouped (he.toAssignment h)).operand trivial hk
  | false =>
    -- without parentheses the operator of `e` is tight enough for its side
    refine h.operand ?_ hk
    cases he with
    | arrow | arrowBlock => cases hp
    | binary ho' =>
      simp only [Node.needsParentheses, Bool.or_eq_false_iff, decide_eq_false_iff_not] at hp
      refine ⟨?_, by omega⟩
      cases isLeft with
      | true => exact Nat.le_of_not_lt hp.1
      | false =>
        have hne := hp.2
        rw [Bool.not_false, Bool.and_true, beq_eq_false_iff_ne] at hne
        exact Nat.lt_of_le_of_ne (Nat.le_of_not_lt hp.1) (Ne.symm hne)
    | _ => trivial

end Parentheses

/-! ## Lists -/

theorem listTokens_eq_separated : ∀ es : List Node,
    listTokens es = separated (es.map expressionTokens)
  | [] => by rw [listTokens]; rfl
  | [e] => by rw [listTokens]; simp [separated]
  | e :: e' :: es => by
    rw [listTokens, listTokens_eq_separated (e' :: es)]
    · simp [separated]
    · simp

theorem listTokens_names (params : List String) :
    listTokens (params.map .name) = separated (params.map fun w => [.word w]) := by
  rw [listTokens_eq_separated, List.map_map]
  rfl

/-- The phrases of several nodes, each with its tree. -/
def phrases (es : List Node) : List (List Token × Node) :=
  es.map fun e => (expressionTokens e, e)

theorem phrases_snd (es : List Node) : (phrases es).map Prod.snd = es := by
  simp [phrases, Function.comp_def]

theorem separated_phrases (es : List Node) :
    separated ((phrases es).map Prod.fst) = listTokens es := by
  rw [listTokens_eq_separated, phrases, List.map_map]
  rfl

theorem forall_mem_phrases {c : Category} {es : List Node}
    (h : ∀ e ∈ es, Reads c (expressionTokens e) e) : ∀ p ∈ phrases es, Reads c p.1 p.2 := by
  intro p hp
  obtain ⟨e, he, rfl⟩ := List.mem_map.mp hp
  exact h e he

/-! ## The phrase of an expression -/

/-- Only objects start with a brace. -/
theorem Expression.exists_cons {e : Node} (h : Expression e) (ho : e.isObject = false) :
    ∃ t more, expressionTokens e = t :: more ∧ t ≠ .mark "\x7b" := by
  -- an operation, a member or a call starts like its first part, or with a parenthesis
  have hhead : ∀ {x : Node} {p : Bool} {us : List Token},
      (∃ t more, expressionTokens x = t :: more ∧ t ≠ .mark "\x7b") →
      ∃ t more, parenthesizedTokens p (expressionTokens x) ++ us = t :: more ∧
        t ≠ .mark "\x7b" := by
    rintro x (_ | _) us ⟨t, more, hx, ht⟩
    · exact ⟨t, _, by rw [hx]; rfl, ht⟩
    · exact ⟨.mark "(", _, rfl, by decide⟩
  have hobject : ∀ {x : Node}, x.isHead = true → x.isObject = false := by
    intro x hx
    cases x <;> first | rfl | cases hx
  induction h with
  | object => cases ho
  | number => exact ⟨_, _, by rw [expressionTokens, if_neg (by omega)], Token.noConfusion⟩
  | call hc _ _ ih _ =>
    rw [expressionTokens]
    exact hhead (ih (hobject hc))
  | member hh _ _ ih =>
    rw [expressionTokens]
    exact hhead (ih (hobject hh))
  | binary _ hl _ _ _ ih _ =>
    rw [expressionTokens]
    exact hhead (ih hl)
  | arrow _ h =>
    rw [expressionTokens]
    · exact ⟨_, _, rfl, by decide⟩
    · exact h.legible.ne_block
  | _ => exact ⟨_, _, by rw [expressionTokens], by simp⟩

theorem reads_property {key value : Node} (hk : key.isKey = true)
    (h : Reads .assignment (expressionTokens value) value) :
    Reads .property (expressionTokens (.property key value)) (.property key value) := by
  rw [expressionTokens]
  cases key with
  | name n =>
    rw [expressionTokens]
    exact .named n h
  | text s =>
    rw [expressionTokens]
    exact .quoted s h
  | _ => cases hk

/-- The body of an arrow function is parenthesised if it would be read as a block. -/
theorem Expression.reads_body {body : Node} (h : Expression body)
    (hr : Reads body.category (expressionTokens body) body) :
    Reads .assignment (parenthesizedTokens body.isObject (expressionTokens body)) body ∧
      (parenthesizedTokens body.isObject (expressionTokens body)).head? ≠ some (.mark "\x7b") := by
  cases ho : body.isObject with
  | true =>
    have hg := Reads.grouped (h.toAssignment hr)
    exact ⟨.ofBinary (hg.operand trivial (by decide)), by simp [parenthesizedTokens]⟩
  | false =>
    obtain ⟨t, more, ht, hne⟩ := h.exists_cons ho
    refine ⟨h.toAssignment hr, ?_⟩
    rw [parenthesizedTokens, if_neg Bool.false_ne_true, ht]
    exact fun he => hne (Option.some.inj he)

/-- The tokens of an expression are a phrase of its category. -/
theorem Expression.reads {e : Node} (h : Expression e) : Reads e.category (expressionTokens e) e := by
  induction h with
  | name h =>
    rw [expressionTokens]
    exact .atom (.reference h.2)
  | text s =>
    rw [expressionTokens]
    exact .atom (.text s)
  | @number n _ =>
    rw [expressionTokens, if_neg (by omega)]
    exact .atom (.number n)
  | bool b =>
    rw [expressionTokens]
    exact .atom (.bool b)
  | null =>
    rw [expressionTokens]
    exact .atom .null
  | @array elements h ih =>
    have hr := Reads.array (forall_mem_phrases fun e he => (h e he).toAssignment (ih e he))
    rw [separated_phrases, phrases_snd] at hr
    rwa [expressionTokens]
  | object hk h ih =>
    have hr := Reads.object (forall_mem_phrases fun p hp => by
      obtain ⟨entry, he, rfl⟩ := List.mem_map.mp hp
      exact reads_property (hk entry he) ((h entry he).toAssignment (ih entry he)))
    rw [separated_phrases, phrases_snd] at hr
    rwa [expressionTokens]
  | call hc h ha ih iha =>
    have hr := Reads.call (h.toLeftHand ih hc)
      (forall_mem_phrases fun a hm => (ha a hm).toAssignment (iha a hm))
    rw [separated_phrases, phrases_snd] at hr
    rwa [expressionTokens]
  | member ho hp h ih =>
    rw [expressionTokens, expressionTokens]
    exact .member (h.toLeftHand ih ho) _
  | binary ho hl hr h h' ih ih' =>
    rw [expressionTokens]
    exact .operation (operatorLevel?_of_precedence ho) (h.toOperand ih ho true)
      (h'.toOperand ih' ho false)
  | @arrow params body hp h ih =>
    obtain ⟨hb, hne⟩ := h.reads_body ih
    have hr := Reads.arrow (.several fun w hw => (hp w hw).2) hne hb
    rw [expressionTokens, listTokens_names]
    · simpa [Node.category] using hr
    · exact h.legible.ne_block
  | arrowBlock hp =>
    have hr := Reads.arrowBlock (.several fun w hw => (hp w hw).2)
    rw [expressionTokens, listTokens_names]
    simpa [Node.category] using hr

/-! ## Round trip -/

/-- **Printing keeps the grouping.** An expression is printed at every level, and the text is read as
this expression and as no other one. -/
theorem readsAs_expressionText_iff {e : Node} (h : Expression e) (annotated : Bool) (level : Int) :
    ∃ text, expressionText annotated level e = .ok text ∧ ∀ e', ReadsAs text e' ↔ e' = e := by
  have hreadable : Readable annotated e := spells_expressionText h.legible
  obtain ⟨text, htext, hs⟩ := hreadable level
  have hr := h.toAssignment h.reads
  refine ⟨text, htext, fun e' => ⟨?_, ?_⟩⟩
  · rintro ⟨ts, hts, hr'⟩
    obtain rfl := Option.some.inj (hs.tokens_eq.symm.trans hts)
    exact hr'.unique hr
  · rintro rfl
    exact ⟨_, hs.tokens_eq, hr⟩

/-- A difference on the right hand side of another one, with an arrow function that is called and has
an object as its body. -/
def difference : Node :=
  .binary "-" (.name "a") (.binary "-" (.name "b")
    (.call (.arrow [.name "x"] (.object (properties [(.text "data-x", .number (.int 1))]))) []))

theorem expression_difference : Expression difference := by
  have hname : ∀ n ∈ ["a", "b", "x"], isVariable n := by
    simp only [List.forall_mem_cons, isVariable]
    decide
  have hbody : Expression (.object (properties [(.text "data-x", .number (.int 1))])) :=
    .object (by decide) (List.forall_mem_singleton.mpr (.number (n := 1) (by decide)))
  have harrow : Expression (.arrow [.name "x"] _) :=
    @Expression.arrow ["x"] _ (List.forall_mem_singleton.mpr (hname _ (by decide))) hbody
  have hcall : Expression (.call (.arrow [.name "x"] _) []) := .call rfl harrow nofun
  have hright : Expression (.binary "-" (.name "b") _) :=
    .binary (by decide) rfl rfl (.name (hname _ (by decide))) hcall
  exact .binary (by decide) rfl rfl (.name (hname _ (by decide))) hright

theorem readsAs_difference_iff : Expression difference ∧
    ∃ text, expressionText false 2 difference = .ok text ∧
      ∀ e', ReadsAs text e' ↔ e' = difference :=
  ⟨expression_difference, readsAs_expressionText_iff expression_difference false 2⟩

/-! ### What is not kept -/

/-- An integer with more digits has no text at all. -/
theorem expressionText_of_not_fewDigits {annotated : Bool} {level n : Int} (h : ¬ fewDigits n) :
    expressionText annotated level (.number (.int n)) = .error .integerTooLong := by
  rw [expressionText, Number.text, integerText, Text.integerText?, if_pos (Nat.lt_of_not_le h)]

/-- The line feed behind the key says nothing. -/
theorem tokens_brokenKey : tokens ['\x7b', '\n', ' ', ' ', 'a', '\n', ':', ' ', 't', 'r', 'u', 'e',
      '\n', '\x7d'] =
    some [.mark "\x7b", .word "a", .mark ":", .word "true", .mark "\x7d"] := by
  have hclose : Spells anyNext ['\n', '\x7d'] [.mark "\x7d"] :=
    (Spells.space (s := ['\n']) (by decide)).after (spells_bracket (by decide))
  have htrue : Spells anyNext ['t', 'r', 'u', 'e', '\n', '\x7d'] [.word "true", .mark "\x7d"] :=
    (spells_word (w := "true") (by decide)).append_cons hclose (by decide)
  have hcolon := (spells_bracket (c := ':') (by decide)).after
    ((Spells.space (s := [' ']) (by decide)).after htrue)
  have hkey := (spells_word (w := "a") (by decide)).append_cons
    ((Spells.space (s := ['\n']) (by decide)).after hcolon) (by decide)
  exact ((spells_bracket (c := '\x7b') (by decide)).after
    ((Spells.space (s := ['\n', ' ', ' ']) (by decide)).after hkey)).tokens_eq

/-- A key that is a word and a line feed is read as the word, whether it is a name or a text. -/
theorem expressionText_not_kept :
    ∃ text, ReadsAs text (.object [.property (.name "a") (.bool true)]) ∧
      ∀ key ∈ [Node.name "a\n", .text "a\n"],
        expressionText false 0 (.object [.property key (.bool true)]) = .ok text ∧
          ¬ ReadsAs text (.object [.property key (.bool true)]) := by
  have hread : ReadsAs "\x7b\n  a\n: true\n\x7d" (.object [.property (.name "a") (.bool true)]) := by
    refine ⟨_, tokens_brokenKey, .ofBinary (Reads.operand (c := .primary) ?_ trivial (by decide))⟩
    have htrue : Reads .assignment [.word "true"] (.bool true) :=
      .ofBinary (Reads.operand (c := .primary) (.atom (.bool true)) trivial (by decide))
    exact @Reads.object [(_, _)] (List.forall_mem_singleton.mpr (.named "a" htrue))
  have honly : ∀ e, ReadsAs "\x7b\n  a\n: true\n\x7d" e →
      e = .object [.property (.name "a") (.bool true)] := by
    rintro e ⟨ts, hts, hr⟩
    obtain ⟨ts', hts', hr'⟩ := hread
    obtain rfl := Option.some.inj (hts'.symm.trans hts)
    exact hr.unique hr'
  refine ⟨_, hread, List.forall_mem_cons.mpr ⟨⟨rfl, fun h => ?_⟩, List.forall_mem_singleton.mpr
    ⟨rfl, fun h => ?_⟩⟩⟩
  · have he := honly _ h
    simp at he
  · have he := honly _ h
    simp at he

end Componentry.Script

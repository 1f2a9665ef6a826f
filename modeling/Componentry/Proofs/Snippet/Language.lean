import Componentry.Proofs.Script.Shape
import Componentry.Proofs.Snippet
import Mathlib.Data.List.TakeWhile

/-!
# The language of snippets

Whatever a snippet looks like, its node is one of a few: `Term` are those that the recognisers make
of each other, and `Answer` adds the arrow functions, which stand only at the top.

**Main statement.** A text without long runs of digits is answered, and the answer is in the language
(`parse_in_language`).

The names that calls and operators ask for are words because `splitWord` gives nothing else
(`isWord_splitWord`); parameters are trimmed and stand between commas (`isParameter_of_mem`).
-/

namespace Componentry.Snippet

open Script (Node)
open Text

/-! ## The language -/

/-- The nodes of snippets that are no arrow functions. -/
inductive Term : Node → Prop
  /-- A word, or a text that is kept as it is. -/
  | name (s : String) : Term (.name s)
  | text (s : String) : Term (.text s)
  | integer (n : Nat) : Term (.number (.int n))
  | member (field : String) : Term (.member (.name propsName) (.name field))
  | call {f : String} {arguments : List Node} (hf : isWord f.toList = true)
    (ha : ∀ a ∈ arguments, Term a) : Term (.call (.name f) arguments)
  | binary {operator left : String} {right : Node} (ho : operator ∈ ["+", "-", "*", "/"])
    (hl : isWord left.toList = true) (hr : Term right) : Term (.binary operator (.name left) right)

/-- The name of a parameter: not empty, without blanks around it, and without the characters that end
a parameter. -/
structure IsParameter (name : String) : Prop where
  ne_empty : name ≠ ""
  trimmed : trim name.toList = name.toList
  not_comma : ',' ∉ name.toList
  not_close : ')' ∉ name.toList

/-- The nodes of snippets. -/
inductive Answer : Node → Prop
  | term {e : Node} (h : Term e) : Answer e
  | arrow {params : List String} {body : Node} (hp : ∀ p ∈ params, IsParameter p) (hb : Term body) :
    Answer (.arrow (params.map .name) body)
  | arrowBlock {params : List String} (hp : ∀ p ∈ params, IsParameter p) :
    Answer (.arrow (params.map .name) (.block []))

/-- The node is no arrow function. -/
def NotArrow : Node → Prop
  | .arrow _ _ => False
  | _ => True

theorem notArrow_name (s : String) : (Node.name s).All NotArrow :=
  .leaf trivial rfl

theorem notArrow_names (names : List String) : ∀ p ∈ names.map Node.name, p.All NotArrow :=
  List.forall_mem_map.mpr fun s _ => notArrow_name s

/-- There are no arrow functions in a term. -/
theorem Term.notArrow {e : Node} (h : Term e) : e.All NotArrow := by
  induction h with
  | name s => exact notArrow_name s
  | text s => exact .leaf trivial rfl
  | integer n => exact .leaf trivial rfl
  | member field => exact .intro trivial (notArrow_names [propsName, field])
  | call hf ha ih =>
    exact .intro trivial (List.forall_mem_cons.mpr ⟨notArrow_name _, ih⟩)
  | binary ho hl hr ih =>
    refine .intro trivial (List.forall_mem_cons.mpr ⟨notArrow_name _, ?_⟩)
    exact List.forall_mem_singleton.mpr ih

/-- An arrow function stands only at the top of an answer. -/
theorem Answer.notArrow_parts {e : Node} (h : Answer e) : ∀ p ∈ e.parts, p.All NotArrow := by
  cases h with
  | term h => exact fun p hp => h.notArrow.part hp
  | arrow hp hb =>
    refine List.forall_mem_append.mpr ⟨notArrow_names _, ?_⟩
    exact List.forall_mem_singleton.mpr hb.notArrow
  | arrowBlock hp =>
    refine List.forall_mem_append.mpr ⟨notArrow_names _, ?_⟩
    exact List.forall_mem_singleton.mpr (.leaf trivial rfl)

/-! ## Words and operators -/

theorem isWord_splitWord {cs : List Char} (h : (splitWord cs).1 ≠ []) :
    isWord (splitWord cs).1 = true := by
  cases cs with
  | nil => exact absurd rfl h
  | cons c rest =>
    rw [splitWord] at h ⊢
    split at h
    · next hc =>
      rw [if_pos hc, isWord, hc, Bool.true_and]
      exact List.all_takeWhile
    · exact absurd rfl h

theorem isWord_of_callParts? {cs name args : List Char} (h : callParts? cs = some (name, args)) :
    isWord name = true := by
  unfold callParts? at h
  split at h
  · cases h
  · next hne hs =>
    obtain ⟨before, -, he⟩ := Option.map_eq_some_iff.mp h
    cases he
    have hword := @isWord_splitWord cs
    rw [hs] at hword
    exact hword hne
  · cases h

/-- A binary expression is a word, blanks, and an operator in front of something. -/
theorem parts_of_binaryParts? {cs word operand : List Char} {op : Char}
    (h : binaryParts? cs = some (word, op, operand)) :
    isWord word = true ∧ isOperator op = true ∧ operand ≠ [] ∧
      ∃ gap, gap.all isBlank = true ∧ cs = word ++ gap ++ op :: operand := by
  have hcs := splitWord_append cs
  unfold binaryParts? at h
  split at h
  · cases h
  · next word' rest hne hs =>
    split at h
    · cases h
    · cases h
    · next op' operand' hnil ht =>
      split at h
      · next ho =>
        cases h
        have hword := @isWord_splitWord cs
        rw [hs] at hword hcs
        refine ⟨hword hne, ho, hnil, rest.takeWhile isBlank, List.all_takeWhile, ?_⟩
        rw [← hcs, List.append_assoc, ← ht, trimLeft, List.takeWhile_append_dropWhile]
      · cases h

theorem mem_operators {op : Char} (h : isOperator op = true) :
    op.toString ∈ ["+", "-", "*", "/"] := by
  simp only [isOperator, Bool.or_eq_true, beq_iff_eq] at h
  rcases h with ((rfl | rfl) | rfl) | rfl <;> decide

/-! ## Trimmed pieces -/

theorem isBlank_head?_trim (cs : List Char) : ∀ c ∈ (trim cs).head?, isBlank c = false := by
  intro c hc
  obtain ⟨after, ha⟩ := trimRight_isPrefix (trimLeft cs)
  have hhead : (trimLeft cs).head? = some c := by
    rw [← ha, List.head?_append]
    simp [trim] at hc
    simp [hc]
  have hnot := List.head?_dropWhile_not isBlank cs
  rw [trimLeft] at hhead
  rw [hhead] at hnot
  exact hnot

theorem isBlank_getLast?_trim (cs : List Char) : ∀ c ∈ (trim cs).getLast?, isBlank c = false := by
  intro c hc
  have hnot := List.head?_dropWhile_not isBlank (trimLeft cs).reverse
  rw [trim, trimRight, List.getLast?_reverse] at hc
  rw [hc] at hnot
  exact hnot

theorem trim_trim (cs : List Char) : trim (trim cs) = trim cs :=
  trim_eq_self (isBlank_head?_trim cs) (isBlank_getLast?_trim cs)

theorem not_mem_of_mem_splitOn {sep : Char} {cs : List Char} :
    ∀ piece ∈ splitOn sep cs, sep ∉ piece := by
  induction cs with
  | nil => exact List.forall_mem_singleton.mpr List.not_mem_nil
  | cons c cs ih =>
    rw [splitOn]
    split
    · exact List.forall_mem_singleton.mpr List.not_mem_nil
    · next hs =>
      rw [hs] at ih
      split
      · exact List.forall_mem_cons.mpr ⟨List.not_mem_nil, ih⟩
      · next hc =>
        obtain ⟨hfirst, hrest⟩ := List.forall_mem_cons.mp ih
        refine List.forall_mem_cons.mpr ⟨?_, hrest⟩
        exact List.not_mem_cons_of_ne_of_not_mem (Ne.symm hc) hfirst

/-- The parameters in a text without closing parentheses. -/
theorem isParameter_of_mem {cs : List Char} (h : ')' ∉ cs) :
    ∀ p ∈ parameterNames cs, IsParameter p := by
  intro name hname
  obtain ⟨p, hp, hsome⟩ := List.mem_filterMap.mp hname
  obtain ⟨piece, hpiece, rfl⟩ := List.mem_map.mp hp
  split at hsome
  · cases hsome
  · next hne =>
    cases hsome
    have hsub := (trim_isInfix piece).subset
    have htext := (infix_of_mem_splitOn hpiece).subset
    refine ⟨?_, ?_, ?_, ?_⟩
    · intro he
      exact hne (by simpa using congrArg String.toList he)
    · rw [String.toList_ofList, trim_trim]
    · rw [String.toList_ofList]
      exact fun hc => not_mem_of_mem_splitOn piece hpiece (hsub hc)
    · rw [String.toList_ofList]
      exact fun hc => h (htext (hsub hc))

theorem not_mem_of_arrowParts? {cs params body : List Char}
    (h : arrowParts? cs = some (params, body)) : ')' ∉ params := by
  unfold arrowParts? at h
  split at h
  · split at h
    · split at h
      · cases h
        intro hmem
        simpa using List.mem_takeWhile_imp hmem
      · cases h
    · cases h
  · cases h

/-! ## Recognisers -/

theorem ensures_atom_term (cs : List Char) : Ensures (atom cs) Term := by
  unfold atom
  split
  · exact ensures_ok (.name _)
  · cases cs with
    | nil => exact ensures_ok (.name _)
    | cons c rest =>
      dsimp only
      split
      · exact ensures_ok (.text _)
      · split
        · split
          · exact ensures_error _
          · exact ensures_ok (.integer _)
        · exact ensures_ok (.name _)

theorem ensures_expressionOfChars_term (cs : List Char) : Ensures (expressionOfChars cs) Term := by
  fun_induction expressionOfChars cs with
  | case1 => exact ensures_ok (.member _)
  | case2 cs t _ name args hc =>
    refine ensures_ok (.call ?_ (List.forall_mem_nil _))
    rw [String.toList_ofList]
    exact isWord_of_callParts? hc
  | case3 cs t _ name args hc _ ih =>
    refine (ensures_mapM fun piece _ => ih piece.1 piece.2).bind fun nodes hnodes => ?_
    refine ensures_pure (.call ?_ hnodes.2)
    rw [String.toList_ofList]
    exact isWord_of_callParts? hc
  | case4 cs t _ _ word op operand hb ih =>
    obtain ⟨hword, hop, -⟩ := parts_of_binaryParts? hb
    refine ih.bind fun right hr => ensures_pure (.binary (mem_operators hop) ?_ hr)
    rwa [String.toList_ofList]
  | case5 cs t => exact ensures_atom_term t

theorem ensures_ofChars_answer (cs : List Char) : Ensures (ofChars cs) Answer := by
  unfold ofChars
  dsimp only
  split
  · next params body hp =>
    have hparams := isParameter_of_mem (not_mem_of_arrowParts? hp)
    rw [parameters_eq_map]
    split
    · exact ensures_ok (.arrowBlock hparams)
    · exact (ensures_expressionOfChars_term _).bind fun body hb => ensures_pure (.arrow hparams hb)
  · exact (ensures_expressionOfChars_term _).imp fun e he => .term he

/-- **A snippet is always answered, in a small language.** A text without long runs of digits has a
node.  It is a term, or an arrow function with a term or an empty block for a body; there is no arrow
function inside it. -/
theorem parse_in_language {code : String} (h : ShortRuns code.toList) :
    Gives (parse code) fun e => Answer e ∧ ∀ p ∈ e.parts, p.All NotArrow := by
  obtain ⟨e, he, -⟩ := gives_ofChars h
  have hanswer := ensures_ofChars_answer code.toList e he
  exact ⟨e, he, hanswer, hanswer.notArrow_parts⟩

/-- An arrow function in an argument is cut like any other text; the body stops in the middle of it. -/
theorem parse_in_language_odd :
    ShortRuns "( , e ,) => f(a, () => -".toList ∧
    Gives (parse "( , e ,) => f(a, () => -") fun e => Answer e ∧ ∀ p ∈ e.parts, p.All NotArrow :=
  have h : ShortRuns "( , e ,) => f(a, () => -".toList := .of_length (by decide)
  ⟨h, parse_in_language h⟩

end Componentry.Snippet

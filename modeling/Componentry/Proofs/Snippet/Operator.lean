import Componentry.Proofs.Snippet.Language
import Componentry.Proofs.Snippet.RoundTrip

/-!
# Operators that are torn apart

The operator of a binary snippet is one character, whatever character follows it.  Read by the lexical
rules of ECMAScript, the same text may have a longer operator there, or a comment: then the operator is
torn apart, and its second half goes into the right operand.

**Main statement.** The operators of a snippet are whole just when no text in it has a word and one of
nine compounds behind it (`operators_whole_iff`).  So `count++` is torn apart
(`operators_whole_iff_increment`).
-/

namespace Componentry.Snippet

open Relation (ReflTransGen)
open Script (Node Token marks mark? token? startsComment)
open Text

/-! ## Texts that are looked at -/

/-- In a text, the recognisers look at another one. -/
inductive LooksAt : List Char → List Char → Prop
  /-- An argument of a call. -/
  | argument {cs name args piece : List Char} (hm : memberPart? (trim cs) = none)
    (hc : callParts? (trim cs) = some (name, args)) (hne : (trim args).isEmpty = false)
    (hp : piece ∈ splitOn ',' args) : LooksAt cs piece
  /-- The right operand of a binary expression. -/
  | operand {cs word operand : List Char} {op : Char} (hm : memberPart? (trim cs) = none)
    (hc : callParts? (trim cs) = none) (hb : binaryParts? (trim cs) = some (word, op, operand)) :
    LooksAt cs operand

theorem LooksAt.succeeds {cs t : List Char} (h : LooksAt cs t)
    (hs : Succeeds (expressionOfChars cs)) : Succeeds (expressionOfChars t) := by
  rw [expressionOfChars_eq, recognized] at hs
  cases h with
  | argument hm hc hne hp =>
    rw [hm, hc] at hs
    dsimp only at hs
    rw [hne] at hs
    exact succeeds_mapM_iff.mp hs.first t hp
  | operand hm hc hb =>
    rw [hm, hc, hb] at hs
    exact hs.first

/-- If the text has a node, so has every text in it that is looked at. -/
theorem succeeds_of_looksAt {cs t : List Char} (h : ReflTransGen LooksAt cs t)
    (hs : Succeeds (expressionOfChars cs)) : Succeeds (expressionOfChars t) := by
  induction h with
  | refl => exact hs
  | tail _ hlast ih => exact hlast.succeeds ih

/-! ## Binary expressions -/

theorem atom_ne_binary {cs : List Char} {operator : String} {left right : Node} :
    atom cs ≠ .ok (.binary operator left right) := by
  intro h
  unfold atom at h
  split at h
  · cases h
  · split at h
    · cases h
    · split at h
      · cases h
      · split at h
        · split at h
          · cases h
          · cases h
        · cases h

/-- Only a text with the parts of a binary expression has a binary node. -/
theorem binaryParts?_of_eq_ok {cs : List Char} {operator : String} {left right : Node}
    (h : expressionOfChars cs = .ok (.binary operator left right)) : ∃ word op operand,
      binaryParts? (trim cs) = some (word, op, operand) ∧ operator = op.toString ∧
        left = .name (String.ofList word) := by
  rw [expressionOfChars_eq, recognized] at h
  split at h
  · cases h
  · split at h
    · split at h
      · cases h
      · next args _ _ =>
        cases hm : (splitOn ',' args).mapM expressionOfChars with
        | error fault =>
          rw [hm] at h
          cases h
        | ok nodes =>
          rw [hm] at h
          cases h
    · split at h
      · next word op operand hb =>
        cases hr : expressionOfChars operand with
        | error fault =>
          rw [hr] at h
          cases h
        | ok right =>
          rw [hr] at h
          cases h
          exact ⟨word, op, operand, hb, rfl, rfl⟩
      · exact absurd h atom_ne_binary

/-- In a text, `rest` follows the word `left` and blanks. -/
structure Follows (cs : List Char) (left : String) (rest : List Char) : Prop where
  isWord : isWord left.toList = true
  parts : ∃ gap, gap.all isBlank = true ∧ trim cs = left.toList ++ gap ++ rest

/-- The operator of a binary node follows its left operand in the text. -/
theorem follows_of_eq_ok {cs : List Char} {operator left : String} {right : Node}
    (h : expressionOfChars cs = .ok (.binary operator (.name left) right)) : ∃ op operand,
      Follows cs left (op :: operand) ∧ isOperator op = true ∧ operator = op.toString := by
  obtain ⟨word, op, operand, hb, ho, hl⟩ := binaryParts?_of_eq_ok h
  obtain ⟨hword, hop, -, gap, hgap, hcs⟩ := parts_of_binaryParts? hb
  cases hl
  refine ⟨op, operand, ⟨?_, gap, hgap, ?_⟩, hop, ho⟩
  · rwa [String.toList_ofList]
  · rwa [String.toList_ofList]

/-- A text with an operator behind a word has a binary node. -/
theorem Follows.eq_ok {cs : List Char} {left : String} {op : Char} {operand : List Char}
    (h : Follows cs left (op :: operand)) (ho : isOperator op = true) (hne : operand ≠ [])
    (hs : Succeeds (expressionOfChars cs)) :
    ∃ right, expressionOfChars cs = .ok (.binary op.toString (.name left) right) := by
  obtain ⟨gap, hgap, hcs⟩ := h.parts
  rw [expressionOfChars_eq, hcs, recognized_binary h.isWord hgap ho hne] at hs ⊢
  obtain ⟨right, hr, -⟩ := hs.first
  rw [hr]
  exact ⟨right, by rw [String.ofList_toList]; rfl⟩

/-- What follows a word and blanks is known if it does not start with a blank. -/
theorem Follows.eq {cs : List Char} {left : String} {c d : Char} {rest rest' : List Char}
    (h : Follows cs left (c :: rest)) (h' : Follows cs left (d :: rest')) (hc : isBlank c = false)
    (hd : isBlank d = false) : c :: rest = d :: rest' := by
  obtain ⟨gap, hgap, hcs⟩ := h.parts
  obtain ⟨gap', hgap', hcs'⟩ := h'.parts
  rw [hcs, List.append_assoc, List.append_assoc, List.append_cancel_left_eq] at hcs'
  have hdrop : ∀ {gap : List Char} {c : Char} {rest : List Char}, gap.all isBlank = true →
      isBlank c = false → (gap ++ c :: rest).dropWhile isBlank = c :: rest := fun hg hc => by
    rw [List.dropWhile_append_of_pos (List.all_eq_true.mp hg),
      List.dropWhile_cons_of_neg (Bool.eq_false_iff.mp hc)]
  rw [← hdrop hgap hc, hcs', hdrop hgap' hd]

/-! ## Operators of the language -/

/-- The operators and comments that start with one of the four operators and go on. -/
def compounds : List String :=
  ["++", "--", "**", "+=", "-=", "*=", "/=", "//", "/*"]

/-- A text starts with a compound. -/
def StartsCompound (cs : List Char) : Prop :=
  ∃ compound ∈ compounds, compound.toList <+: cs

/-- The longest mark counts. -/
theorem length_le_of_mark? {cs rest : List Char} {m m' : String} (h : mark? cs = some (m, rest))
    (hm : m' ∈ marks) (hp : m'.toList <+: cs) : m'.length ≤ m.length := by
  have hsorted : marks.Pairwise fun a b => b.length ≤ a.length := by decide
  obtain ⟨found, hf, he⟩ := Option.map_eq_some_iff.mp h
  cases he
  obtain ⟨-, before, after, hmarks, hbefore⟩ := List.find?_eq_some_iff_append.mp hf
  rw [hmarks] at hm hsorted
  rcases List.mem_append.mp hm with hm | hm
  · have hnot := hbefore m' hm
    rw [List.isPrefixOf_iff_prefix.mpr hp] at hnot
    cases hnot
  · rcases List.mem_cons.mp hm with rfl | hm
    · exact Nat.le_refl _
    · exact List.rel_of_pairwise_cons (List.pairwise_append.mp hsorted).2.1 hm

theorem prefix_of_mark? {cs rest : List Char} {m : String} (h : mark? cs = some (m, rest)) :
    m.toList <+: cs := by
  obtain ⟨found, hf, he⟩ := Option.map_eq_some_iff.mp h
  cases he
  have hfound := List.find?_some hf
  exact List.isPrefixOf_iff_prefix.mp hfound

theorem mark?_of_token? {cs rest : List Char} {m : String}
    (h : token? cs = some (.mark m, rest)) : startsComment cs = false ∧ mark? cs = some (m, rest) := by
  unfold token? at h
  split at h
  · cases h
  · split at h
    · cases h
    · split at h
      · obtain ⟨_, -, he⟩ := Option.map_eq_some_iff.mp h
        cases he
      · split at h
        · obtain ⟨_, -, he⟩ := Option.map_eq_some_iff.mp h
          cases he
        · split at h
          · cases h
          · next hcomment =>
            obtain ⟨found, hf, he⟩ := Option.map_eq_some_iff.mp h
            cases he
            exact ⟨Bool.eq_false_iff.mpr hcomment, hf⟩

/-- A compound is never read as an operator of one character. -/
theorem StartsCompound.token?_ne {cs rest : List Char} {op : Char} (h : StartsCompound cs) :
    token? cs ≠ some (.mark op.toString, rest) := by
  intro ht
  obtain ⟨hcomment, hmark⟩ := mark?_of_token? ht
  obtain ⟨compound, hmem, hp⟩ := h
  have hlong : (compounds.all fun c => decide (1 < c.length)) = true := by decide
  have hkinds : (compounds.all fun c => decide (c ∈ marks) || c == "//" || c == "/*") = true := by decide
  have hkind := List.all_eq_true.mp hkinds compound hmem
  simp only [Bool.or_eq_true, decide_eq_true_eq, beq_iff_eq] at hkind
  rcases hkind with (hm | rfl) | rfl
  · have hle := length_le_of_mark? hmark hm hp
    have hlt := of_decide_eq_true (List.all_eq_true.mp hlong compound hmem)
    exact absurd (Nat.lt_of_lt_of_le hlt hle) (by simp [Char.toString])
  · obtain ⟨more, rfl⟩ := hp
    cases hcomment
  · obtain ⟨more, rfl⟩ := hp
    cases hcomment

/-- Each mark that starts with one of the four operators is that operator or starts with a compound. -/
theorem eq_or_startsCompound {op : Char} {m : String} (hm : m ∈ marks) (ho : isOperator op = true)
    (hh : m.toList.head? = some op) : m = op.toString ∨ StartsCompound m.toList := by
  have hmarks : (marks.all fun m => ['+', '-', '*', '/'].all fun op => m.toList.head? != some op ||
      m == op.toString || compounds.any fun c => c.toList.isPrefixOf m.toList) = true := by decide
  have hop : op ∈ ['+', '-', '*', '/'] := by
    simp only [isOperator, Bool.or_eq_true, beq_iff_eq] at ho
    rcases ho with ((rfl | rfl) | rfl) | rfl <;> decide
  have h := List.all_eq_true.mp (List.all_eq_true.mp hmarks m hm) op hop
  simp only [hh, bne_self_eq_false, Bool.false_or, Bool.or_eq_true, beq_iff_eq, List.any_eq_true,
    List.isPrefixOf_iff_prefix] at h
  exact h

/-- The longest mark at an operator that is not the start of a compound. -/
theorem mark?_of_not_startsCompound {op : Char} {operand : List Char} (ho : isOperator op = true)
    (h : ¬ StartsCompound (op :: operand)) :
    mark? (op :: operand) = some (op.toString, operand) := by
  have hop : op.toString.toList = [op] := String.toList_singleton op
  have hfind : marks.find? (fun m => m.toList.isPrefixOf (op :: operand)) = some op.toString := by
    cases hf : marks.find? fun m => m.toList.isPrefixOf (op :: operand) with
    | none =>
      have hknown : ∀ s ∈ ["+", "-", "*", "/"], s ∈ marks := by decide
      have hnone := List.find?_eq_none.mp hf _ (hknown _ (mem_operators ho))
      rw [hop] at hnone
      exact absurd (by simp) hnone
    | some m =>
      have hm := List.mem_of_find?_eq_some hf
      have hfound := List.find?_some hf
      have hp := List.isPrefixOf_iff_prefix.mp hfound
      have hfull : ∀ m ∈ marks, m.toList ≠ [] := by decide
      have hhead : m.toList.head? = some op := by
        obtain ⟨c, rest, hc⟩ := List.exists_cons_of_ne_nil (hfull m hm)
        rw [hc] at hp ⊢
        rw [(List.cons_prefix_cons.mp hp).1]
        rfl
      rcases eq_or_startsCompound hm ho hhead with rfl | ⟨compound, hmem, hc⟩
      · rfl
      · exact absurd ⟨compound, hmem, hc.trans hp⟩ h
  rw [mark?, hfind, Option.map_some, hop]
  rfl

/-- An operator that is not the start of a compound is read as it is. -/
theorem token?_of_not_startsCompound {op : Char} {operand : List Char} (ho : isOperator op = true)
    (h : ¬ StartsCompound (op :: operand)) :
    token? (op :: operand) = some (.mark op.toString, operand) := by
  have hcomment : startsComment (op :: operand) = false := by
    unfold startsComment
    split
    · next he => exact absurd ⟨"//", by decide, by rw [he]; exact ⟨_, rfl⟩⟩ h
    · next he => exact absurd ⟨"/*", by decide, by rw [he]; exact ⟨_, rfl⟩⟩ h
    · rfl
  have hname : Script.isNameStart op = false := not_of_isOperator rfl ho
  have hdigit : op.isDigit = false := not_of_isOperator rfl ho
  have hquote : (decide (op = '"') || decide (op = '\'')) = false :=
    @not_of_isOperator (fun c => decide (c = '"') || decide (c = '\'')) rfl op ho
  rw [token?]
  simp only [hname, hdigit, hquote, hcomment, mark?_of_not_startsCompound ho h, Bool.false_eq_true,
    if_false, Option.map_some]

/-! ## Whole operators -/

/-- Whenever the text has a binary node, its operator is the token that follows the left operand. -/
def Whole (cs : List Char) : Prop :=
  ∀ operator left right, expressionOfChars cs = .ok (.binary operator (.name left) right) →
    ∃ rest after, Follows cs left rest ∧ token? rest = some (.mark operator, after)

/-- The text has a word with a compound behind it. -/
def HasCompound (cs : List Char) : Prop :=
  ∃ left rest, Follows cs left rest ∧ StartsCompound rest

/-- A compound has a first character, which is an operator, and a second one. -/
theorem StartsCompound.exists_operator {cs : List Char} (h : StartsCompound cs) :
    ∃ op operand, cs = op :: operand ∧ isOperator op = true ∧ operand ≠ [] := by
  obtain ⟨compound, hmem, more, rfl⟩ := h
  simp only [compounds, List.mem_cons, List.not_mem_nil, or_false] at hmem
  rcases hmem with rfl | rfl | rfl | rfl | rfl | rfl | rfl | rfl | rfl
  all_goals exact ⟨_, _, rfl, rfl, List.cons_ne_nil _ _⟩

/-- The operator of a text with a node is whole just when there is no compound in its place. -/
theorem whole_iff {cs : List Char} (hs : Succeeds (expressionOfChars cs)) :
    Whole cs ↔ ¬ HasCompound cs := by
  constructor
  · rintro h ⟨left, rest, hf, hc⟩
    obtain ⟨op, operand, rfl, ho, hne⟩ := hc.exists_operator
    obtain ⟨right, hr⟩ := hf.eq_ok ho hne hs
    obtain ⟨rest', after, hf', ht⟩ := h _ _ _ hr
    -- the token starts with the operator, so both texts behind the word are the same
    obtain ⟨operand', rfl⟩ : ∃ operand', rest' = op :: operand' := by
      obtain ⟨more, hmore⟩ := prefix_of_mark? (mark?_of_token? ht).2
      rw [← hmore]
      exact ⟨more, congrArg (· ++ more) (String.toList_singleton op)⟩
    have hblank : isBlank op = false := not_of_isOperator rfl ho
    rw [hf'.eq hf hblank hblank] at ht
    exact hc.token?_ne ht
  · intro h operator left right hr
    obtain ⟨op, operand, hf, ho, rfl⟩ := follows_of_eq_ok hr
    have hc : ¬ StartsCompound (op :: operand) := fun hc => h ⟨left, _, hf, hc⟩
    exact ⟨_, operand, hf, token?_of_not_startsCompound ho hc⟩

/-- **Operators are whole just where there are no compounds.** In every text that the recognisers look
at, the operator of a binary node is the token that follows its left operand in the text, if and only
if no such text has a word with `++`, `--`, `**`, `+=`, `-=`, `*=`, `/=`, `//` or `/*` behind it. -/
theorem operators_whole_iff {code : String} {e : Node} (h : expression code = .ok e) :
    (∀ t, ReflTransGen LooksAt code.toList t → Whole t) ↔
      ∀ t, ReflTransGen LooksAt code.toList t → ¬ HasCompound t := by
  have hs : Succeeds (expressionOfChars code.toList) := ⟨e, h, trivial⟩
  exact forall₂_congr fun t ht => whole_iff (succeeds_of_looksAt ht hs)

/-- An increment is torn apart, in the argument of a call as well: its right operand is the second half
of its operator. -/
theorem operators_whole_iff_increment :
    expression "f(count++)" = .ok (.call (.name "f") [.binary "+" (.name "count") (.name "+")]) ∧
    ¬ ∀ t, ReflTransGen LooksAt "f(count++)".toList t → Whole t := by
  have hparse : expression "f(count++)" =
      .ok (.call (.name "f") [.binary "+" (.name "count") (.name "+")]) := by
    with_unfolding_all rfl
  refine ⟨hparse, fun hwhole => ?_⟩
  have hlook : LooksAt "f(count++)".toList "count++".toList :=
    .argument rfl rfl rfl List.mem_cons_self
  refine (operators_whole_iff hparse).mp hwhole _ (.single hlook) ⟨"count", "++".toList, ?_, ?_⟩
  · exact ⟨rfl, [], rfl, rfl⟩
  · exact ⟨"++", List.mem_cons_self, List.prefix_rfl⟩

end Componentry.Snippet

import Componentry.Proofs.Snippet.Operator

/-!
# What is kept of a snippet

The recognisers regroup a text: they trim it, they take calls and binary expressions apart, and the
printer puts blanks and parentheses where it wants them.  The ink of a text is what is left of it
without blanks and parentheses.

**Main statement.** In a snippet without quotation marks and digits no ink is added.  All of its ink is
kept if and only if no text in it that is looked at is a call with ink behind its last parenthesis
(`snippet_ink_kept_iff`).  So `total(x) + y` is printed as `total(x)`
(`snippet_ink_kept_iff_trailing`).

`PartOf` is what carries the induction: of each piece of a text a part is kept, and all of it on some
condition; the conditions of pieces one after another add up (`PartOf.append`).

Quoted texts and integers are left out because the printer spells them anew, and arrow functions
because their blocks are not read at all.
-/

namespace Componentry.Snippet

open Relation (ReflTransGen)
open Script (Node expressionText expressionTexts)
open Text

/-! ## Ink -/

/-- Whether `c` is neither blank nor a parenthesis. -/
def isInk (c : Char) : Bool :=
  !isBlank c && c != '(' && c != ')'

/-- The text without blanks and parentheses. -/
def ink (cs : List Char) : List Char :=
  cs.filter isInk

@[simp] theorem ink_nil : ink [] = [] := rfl

@[simp] theorem ink_append (cs ds : List Char) : ink (cs ++ ds) = ink cs ++ ink ds :=
  List.filter_append cs ds

theorem ink_cons_of_isInk {c : Char} (h : isInk c = true) (cs : List Char) :
    ink (c :: cs) = c :: ink cs :=
  List.filter_cons_of_pos h

theorem ink_cons_of_not_isInk {c : Char} (h : isInk c = false) (cs : List Char) :
    ink (c :: cs) = ink cs :=
  List.filter_cons_of_neg (Bool.eq_false_iff.mp h)

theorem ink_of_all_isBlank {cs : List Char} (h : cs.all isBlank = true) : ink cs = [] := by
  rw [ink, List.filter_eq_nil_iff]
  intro c hc
  simp [isInk, List.all_eq_true.mp h c hc]

theorem ink_trimLeft (cs : List Char) : ink (trimLeft cs) = ink cs := by
  have hblank : ink (cs.takeWhile isBlank) = [] := ink_of_all_isBlank List.all_takeWhile
  have hsplit : cs.takeWhile isBlank ++ trimLeft cs = cs := List.takeWhile_append_dropWhile
  have hink := congrArg ink hsplit
  rwa [ink_append, hblank, List.nil_append] at hink

theorem ink_reverse (cs : List Char) : ink cs.reverse = (ink cs).reverse :=
  List.filter_reverse

theorem ink_trim (cs : List Char) : ink (trim cs) = ink cs := by
  have hright : ∀ ds : List Char, ink (trimRight ds) = ink ds := by
    intro ds
    have h := ink_trimLeft ds.reverse
    rw [trimLeft] at h
    rw [trimRight, ink_reverse, h, ink_reverse, List.reverse_reverse]
  rw [trim, hright, ink_trimLeft]

theorem ink_eq_nil_of_trim {cs : List Char} (h : (trim cs).isEmpty = true) : ink cs = [] := by
  rw [← ink_trim, List.isEmpty_iff.mp h, ink_nil]

theorem ink_parenthesized (s : String) : ink (Script.parenthesized s).toList = ink s.toList := by
  have hclose : ink [')'] = [] := rfl
  have hchars : (Script.parenthesized s).toList = '(' :: (s.toList ++ [')']) := by
    simp [Script.parenthesized]
  rw [hchars, ink_cons_of_not_isInk rfl, ink_append, hclose, List.append_nil]

theorem ink_parenthesizedIf (b : Bool) (s : String) :
    ink (Script.parenthesizedIf b s).toList = ink s.toList := by
  cases b with
  | false => rfl
  | true => exact ink_parenthesized s

/-! ## Parts -/

/-- `xs` is a part of `ys`, and all of it just when `P` holds. -/
structure PartOf (xs ys : List Char) (P : Prop) : Prop where
  sublist : xs.Sublist ys
  eq_iff : xs = ys ↔ P

namespace PartOf

variable {xs ys xs' ys' : List Char} {P Q : Prop}

theorem refl (xs : List Char) : PartOf xs xs True :=
  ⟨List.Sublist.refl xs, iff_of_true rfl trivial⟩

theorem nil (ys : List Char) : PartOf [] ys (ys = []) :=
  ⟨List.nil_sublist ys, eq_comm⟩

theorem congr (h : PartOf xs ys P) (hpq : P ↔ Q) : PartOf xs ys Q :=
  ⟨h.sublist, h.eq_iff.trans hpq⟩

/-- Of two texts one after another all is kept just when all is kept of each. -/
theorem append (h : PartOf xs ys P) (h' : PartOf xs' ys' Q) :
    PartOf (xs ++ xs') (ys ++ ys') (P ∧ Q) := by
  refine ⟨h.sublist.append h'.sublist, ?_⟩
  rw [← h.eq_iff, ← h'.eq_iff]
  constructor
  · intro he
    -- neither part is longer than its whole, so that neither is shorter
    have hlength := congrArg List.length he
    have hle := h.sublist.length_le
    have hle' := h'.sublist.length_le
    simp only [List.length_append] at hlength
    exact ⟨h.sublist.eq_of_length (by omega), h'.sublist.eq_of_length (by omega)⟩
  · rintro ⟨rfl, rfl⟩
    rfl

end PartOf

/-! ## Calls with something behind them -/

theorem exists_of_beforeLast? {c : Char} {cs before : List Char}
    (h : beforeLast? c cs = some before) : ∃ after, cs = before ++ c :: after ∧ c ∉ after := by
  induction cs generalizing before with
  | nil => cases h
  | cons d cs ih =>
    rw [beforeLast?] at h
    split at h
    · next before' hb =>
      cases h
      obtain ⟨after, rfl, hafter⟩ := ih hb
      exact ⟨after, rfl, hafter⟩
    · next hnone =>
      split at h
      · next hd =>
        cases h
        exact ⟨cs, by rw [hd]; rfl, beforeLast?_eq_none_iff.mp hnone⟩
      · cases h

/-- The text is a call with the given name and arguments, and `tail` behind its last parenthesis. -/
structure IsCall (cs name args tail : List Char) : Prop where
  isWord : isWord name = true
  eq : cs = name ++ '(' :: (args ++ ')' :: tail)
  last : ')' ∉ tail

theorem callParts?_eq_some_iff {cs name args : List Char} :
    callParts? cs = some (name, args) ↔ ∃ tail, IsCall cs name args tail := by
  constructor
  · intro h
    have hword := isWord_of_callParts? h
    have hcs := splitWord_append cs
    unfold callParts? at h
    split at h
    · cases h
    · next hs =>
      obtain ⟨before, hb, he⟩ := Option.map_eq_some_iff.mp h
      cases he
      obtain ⟨tail, rfl, htail⟩ := exists_of_beforeLast? hb
      rw [hs] at hcs
      exact ⟨tail, hword, hcs.symm, htail⟩
    · cases h
  · rintro ⟨tail, h⟩
    rw [h.eq]
    exact callParts?_append h.isWord h.last args

/-- The text is a call with ink behind its last parenthesis. -/
def Loses (cs : List Char) : Prop :=
  ∃ name args tail, IsCall (trim cs) name args tail ∧ ink tail ≠ []

theorem not_loses_of_callParts? {cs : List Char} (h : callParts? (trim cs) = none) : ¬ Loses cs := by
  rintro ⟨name, args, tail, hcall, -⟩
  rw [callParts?_eq_some_iff.mpr ⟨tail, hcall⟩] at h
  cases h

/-- The parts of a call are determined by its text, so there is only one place for ink to be lost. -/
theorem IsCall.not_loses_iff {cs name args tail : List Char} (h : IsCall (trim cs) name args tail) :
    ¬ Loses cs ↔ ink tail = [] := by
  constructor
  · intro hl
    by_contra htail
    exact hl ⟨name, args, tail, h, htail⟩
  · rintro htail ⟨name', args', tail', h', hink⟩
    have hparts := callParts?_eq_some_iff.mpr ⟨tail', h'⟩
    rw [callParts?_eq_some_iff.mpr ⟨tail, h⟩] at hparts
    cases hparts
    have he := h.eq.symm.trans h'.eq
    simp only [List.append_cancel_left_eq, List.cons.injEq, true_and] at he
    rw [← he] at hink
    exact hink htail

theorem callParts?_of_memberPart? {cs member : List Char} (h : memberPart? cs = some member) :
    cs = "props.".toList ++ member ∧ callParts? cs = none := by
  unfold memberPart? at h
  split at h
  · next member' =>
    cases h
    have hs : splitWord ("props".toList ++ '.' :: member) = ("props".toList, '.' :: member) :=
      splitWord_append_of_head (by decide) rfl
    exact ⟨rfl, callParts?_eq_none hs (by simp)⟩
  · cases h

/-! ## Texts of which all is kept -/

/-- No text that is looked at is a call with ink behind it. -/
def Kept (cs : List Char) : Prop :=
  ∀ t, ReflTransGen LooksAt cs t → ¬ Loses t

theorem kept_iff (cs : List Char) : Kept cs ↔ ¬ Loses cs ∧ ∀ t, LooksAt cs t → Kept t := by
  constructor
  · intro h
    exact ⟨h cs .refl, fun t ht t' ht' => h t' (ht'.head ht)⟩
  · rintro ⟨hself, hparts⟩ t ht
    rcases ht.cases_head with rfl | ⟨s, hs, hrest⟩
    · exact hself
    · exact hparts s hs t hrest

section Shapes

variable {cs : List Char}

theorem kept_of_member {member : List Char} (hm : memberPart? (trim cs) = some member) : Kept cs := by
  refine (kept_iff cs).mpr ⟨not_loses_of_callParts? (callParts?_of_memberPart? hm).2, ?_⟩
  intro t ht
  cases ht with
  | argument hm' => cases hm.symm.trans hm'
  | operand hm' => cases hm.symm.trans hm'

theorem kept_call_iff {name args tail : List Char} (hm : memberPart? (trim cs) = none)
    (h : IsCall (trim cs) name args tail) :
    Kept cs ↔ ((trim args).isEmpty = false → ∀ piece ∈ splitOn ',' args, Kept piece) ∧
      ink tail = [] := by
  have hc := callParts?_eq_some_iff.mpr ⟨tail, h⟩
  rw [kept_iff, h.not_loses_iff, and_comm]
  refine and_congr_left fun _ => ⟨fun hk hne piece hp => hk piece (.argument hm hc hne hp), ?_⟩
  intro hk t ht
  cases ht with
  | argument _ hc' hne hp =>
    cases hc.symm.trans hc'
    exact hk hne t hp
  | operand _ hc' _ => cases hc.symm.trans hc'

theorem kept_binary_iff {word operand : List Char} {op : Char} (hm : memberPart? (trim cs) = none)
    (hc : callParts? (trim cs) = none) (hb : binaryParts? (trim cs) = some (word, op, operand)) :
    Kept cs ↔ Kept operand := by
  rw [kept_iff]
  constructor
  · exact fun h => h.2 operand (.operand hm hc hb)
  · intro hk
    refine ⟨not_loses_of_callParts? hc, fun t ht => ?_⟩
    cases ht with
    | argument _ hc' _ _ => cases hc.symm.trans hc'
    | operand _ _ hb' =>
      cases hb.symm.trans hb'
      exact hk

theorem kept_of_atom (hc : callParts? (trim cs) = none) (hb : binaryParts? (trim cs) = none) :
    Kept cs := by
  refine (kept_iff cs).mpr ⟨not_loses_of_callParts? hc, fun t ht => ?_⟩
  cases ht with
  | argument _ hc' _ _ => cases hc.symm.trans hc'
  | operand _ _ hb' => cases hb.symm.trans hb'

end Shapes

/-! ## Printing what was parsed -/

/-- Whether `c` is neither a quotation mark nor a digit. -/
def isBare (c : Char) : Bool :=
  c != '\'' && c != '"' && c != '`' && !isDigit c

/-- The expression has the same text everywhere.  Its ink is a part of that of `cs`, and all of it just
when nothing in `cs` is lost. -/
def Inked (cs : List Char) (e : Node) : Prop :=
  ∃ text, (∀ annotated level, expressionText annotated level e = .ok text) ∧
    PartOf (ink text.toList) (ink cs) (Kept cs)

theorem atom_of_isBare {cs : List Char} (h : ∀ c ∈ cs, isBare c = true) :
    atom cs = .ok (.name (String.ofList cs)) := by
  unfold atom
  split
  · rfl
  · cases cs with
    | nil => rfl
    | cons c rest =>
      have hc := h c List.mem_cons_self
      simp only [isBare, Bool.and_eq_true, bne_iff_ne, Bool.not_eq_true'] at hc
      obtain ⟨⟨⟨hsingle, hdouble⟩, hback⟩, hdigit⟩ := hc
      simp [hsingle, hdouble, hback, hdigit]

theorem inked_name {cs : List Char} (h : Kept cs) : Inked cs (.name (String.ofList (trim cs))) := by
  refine ⟨String.ofList (trim cs), fun annotated level => by rw [expressionText], ?_⟩
  rw [String.toList_ofList, ink_trim]
  exact (PartOf.refl _).congr (iff_of_true trivial h)

theorem inked_member {cs member : List Char} (hm : memberPart? (trim cs) = some member) :
    Inked cs (.member (.name propsName) (.name (String.ofList member))) := by
  refine ⟨propsName ++ "." ++ String.ofList member, fun annotated level => ?_, ?_⟩
  · rw [expressionText, expressionText]
    rfl
  · have hchars : (propsName ++ "." ++ String.ofList member).toList = trim cs := by
      rw [(callParts?_of_memberPart? hm).1]
      simp [propsName]
    rw [hchars, ink_trim]
    exact (PartOf.refl _).congr (iff_of_true trivial (kept_of_member hm))

/-- The arguments of a call have texts, and of each piece a part is kept. -/
theorem exists_texts_of_inked {pieces : List (List Char)} {nodes : List Node}
    (h : List.Forall₂ Inked pieces nodes) :
    ∃ texts, (∀ annotated level, expressionTexts annotated level nodes = .ok texts) ∧
      List.Forall₂ (fun piece text => PartOf (ink text.toList) (ink piece) (Kept piece))
        pieces texts := by
  induction h with
  | nil => exact ⟨[], fun annotated level => by rw [expressionTexts], .nil⟩
  | cons hnode _ ih =>
    obtain ⟨text, htext, hpart⟩ := hnode
    obtain ⟨texts, htexts, hparts⟩ := ih
    refine ⟨text :: texts, fun annotated level => ?_, .cons hpart hparts⟩
    rw [expressionTexts, htext, htexts]
    rfl

/-- What is kept of pieces with commas between them. -/
theorem partOf_joined {pieces : List (List Char)} {texts : List String}
    (h : List.Forall₂ (fun piece text => PartOf (ink text.toList) (ink piece) (Kept piece))
      pieces texts) :
    PartOf (ink (joined ", " texts).toList) (ink (List.intercalate [','] pieces))
      (∀ piece ∈ pieces, Kept piece) := by
  induction h with
  | nil => exact (PartOf.refl []).congr (by simp)
  | @cons piece text pieces texts hpart hrest ih =>
    cases hrest with
    | nil => simpa [joined, List.intercalate] using hpart
    | @cons piece' text' pieces texts hpart' hrest =>
      have hcomma : ink ", ".toList = [','] := rfl
      have hcomma' : ink [','] = [','] := rfl
      have hseq := (hpart.append (PartOf.refl [','])).append ih
      rw [joined, String.toList_append, String.toList_append, ink_append, ink_append, hcomma,
        List.intercalate_cons_cons, ink_append, ink_append, hcomma']
      · exact hseq.congr (by simp)
      · simp

section Shapes

variable {cs : List Char}

theorem inked_call {name args tail : List Char} {nodes : List Node} {texts : List String}
    (hm : memberPart? (trim cs) = none) (h : IsCall (trim cs) name args tail)
    (htexts : ∀ annotated level, expressionTexts annotated level nodes = .ok texts)
    (hpart : PartOf (ink (joined ", " texts).toList) (ink args)
      ((trim args).isEmpty = false → ∀ piece ∈ splitOn ',' args, Kept piece)) :
    Inked cs (.call (.name (String.ofList name)) nodes) := by
  refine ⟨String.ofList name ++ Script.parenthesized (joined ", " texts),
    fun annotated level => ?_, ?_⟩
  · rw [expressionText, expressionText, htexts]
    rfl
  · have hink : ink cs = ink name ++ ink args ++ ink tail := by
      rw [← ink_trim, h.eq, ink_append, ink_cons_of_not_isInk rfl, ink_append,
        ink_cons_of_not_isInk rfl, List.append_assoc]
    have hparts := ((PartOf.refl (ink name)).append hpart).append (PartOf.nil (ink tail))
    rw [List.append_nil] at hparts
    rw [String.toList_append, String.toList_ofList, ink_append, ink_parenthesized, hink,
      kept_call_iff hm h]
    exact hparts.congr (by rw [true_and])

theorem inked_binary {word operand : List Char} {op : Char} {right : Node}
    (hm : memberPart? (trim cs) = none) (hc : callParts? (trim cs) = none)
    (hb : binaryParts? (trim cs) = some (word, op, operand)) (hr : Inked operand right) :
    Inked cs (.binary op.toString (.name (String.ofList word)) right) := by
  obtain ⟨text, htext, hpart⟩ := hr
  refine ⟨_, fun annotated level => by rw [expressionText, expressionText, htext]; rfl, ?_⟩
  obtain ⟨-, hop, -, gap, hgap, hcs⟩ := parts_of_binaryParts? hb
  have hinkOp : isInk op = true := by
    have hnot : (!isInk op) = false := @not_of_isOperator (fun c => !isInk c) rfl op hop
    simpa using hnot
  have hink : ink cs = ink word ++ [op] ++ ink operand := by
    rw [← ink_trim, hcs, ink_append, ink_append, ink_of_all_isBlank hgap, ink_cons_of_isInk hinkOp,
      List.append_nil, List.append_assoc]
    rfl
  have hblank : ink " ".toList = [] := rfl
  have hsingle : ink op.toString.toList = [op] := by
    rw [Char.toString, String.toList_singleton, ink_cons_of_isInk hinkOp, ink_nil]
  have hparts := ((PartOf.refl (ink word)).append (PartOf.refl [op])).append hpart
  rw [hink, kept_binary_iff hm hc hb]
  simp only [String.toList_append, ink_append, ink_parenthesizedIf, String.toList_ofList, hblank,
    hsingle, List.append_nil]
  exact hparts.congr (by simp)

end Shapes

/-- **What a text is parsed as is printed with a part of its ink.** -/
theorem gives_inked {cs : List Char} (h : ∀ c ∈ cs, isBare c = true) :
    Gives (expressionOfChars cs) (Inked cs) := by
  fun_induction expressionOfChars cs with
  | case1 cs t member hm => exact gives_ok (inked_member hm)
  | case2 cs t hm name args hc hblank =>
    obtain ⟨tail, hcall⟩ := callParts?_eq_some_iff.mp hc
    refine gives_ok (inked_call hm hcall (fun annotated level => by rw [expressionTexts]) ?_)
    have hnone : ink args = [] := ink_eq_nil_of_trim hblank
    rw [hnone]
    exact (PartOf.refl []).congr (iff_of_true trivial fun hne => by simp [hblank] at hne)
  | case3 cs t hm name args hc hne ih =>
    obtain ⟨tail, hcall⟩ := callParts?_eq_some_iff.mp hc
    have hpieces : ∀ piece ∈ splitOn ',' args, ∀ c ∈ piece, isBare c = true := fun piece hp c hmem =>
      h c (((infix_of_mem_splitOn hp).trans
        ((infix_of_callParts? hc).trans (trim_isInfix cs))).subset hmem)
    have heach : ∀ piece ∈ (splitOn ',' args).attach,
        Gives (expressionOfChars piece.1) (Inked piece.1) :=
      fun piece _ => ih piece.1 piece.2 (hpieces _ piece.2)
    refine (gives_mapM_each heach).bind fun nodes hnodes => gives_pure ?_
    rw [← List.forall₂_map_left_iff, List.attach_map_subtype_val] at hnodes
    obtain ⟨texts, htexts, hparts⟩ := exists_texts_of_inked hnodes
    have hpart := partOf_joined hparts
    rw [intercalate_splitOn] at hpart
    refine inked_call hm hcall htexts (hpart.congr ?_)
    simp [hne]
  | case4 cs t hm hc word op operand hb ih =>
    have hoperand : ∀ c ∈ operand, isBare c = true := fun c hmem =>
      h c (((suffix_of_binaryParts? hb).isInfix.trans (trim_isInfix cs)).subset hmem)
    exact (ih hoperand).bind fun right hr => gives_pure (inked_binary hm hc hb hr)
  | case5 cs t hm hc hb =>
    have htrim : ∀ c ∈ trim cs, isBare c = true := fun c hmem => h c ((trim_isInfix cs).subset hmem)
    rw [atom_of_isBare htrim]
    exact gives_ok (inked_name (kept_of_atom hc hb))

theorem parse_eq_expressionOfChars {code : String} (h : (trim code.toList).head? ≠ some '(') :
    parse code = expressionOfChars code.toList := by
  rw [parse, ofChars, arrowParts?_eq_none h, expressionOfChars_eq, trim_trim, ← expressionOfChars_eq]

/-- **Ink is lost just behind calls.** A snippet without quotation marks and digits that does not start
with a parenthesis is parsed as an expression that has a text.  The ink of this text is in the snippet,
in the same order.  All of the snippet's ink is there if and only if no text that the recognisers look
at in the snippet is a call with ink behind its last parenthesis. -/
theorem snippet_ink_kept_iff {code : String} (hb : code.toList.all isBare = true)
    (ho : (trim code.toList).head? ≠ some '(') :
    ∃ e text, parse code = .ok e ∧
      (∀ annotated level, expressionText annotated level e = .ok text) ∧
      (ink text.toList).Sublist (ink code.toList) ∧
      (ink text.toList = ink code.toList ↔
        ∀ t, ReflTransGen LooksAt code.toList t → ¬ Loses t) := by
  obtain ⟨e, he, text, htext, hpart⟩ := gives_inked (List.all_eq_true.mp hb)
  rw [← parse_eq_expressionOfChars ho] at he
  exact ⟨e, text, he, htext, hpart.sublist, hpart.eq_iff⟩

/-- What is added to a call is lost. -/
theorem snippet_ink_kept_iff_trailing :
    parse "total(x) + y" = .ok (.call (.name "total") [.name "x"]) ∧
    (∀ annotated level,
      expressionText annotated level (.call (.name "total") [.name "x"]) = .ok "total(x)") ∧
    ink "total(x)".toList ≠ ink "total(x) + y".toList := by
  have hparse : parse "total(x) + y" = .ok (.call (.name "total") [.name "x"]) := by
    with_unfolding_all rfl
  have hprint : ∀ annotated level,
      expressionText annotated level (.call (.name "total") [.name "x"]) = .ok "total(x)" := by
    intro annotated level
    simp only [expressionText, expressionTexts]
    rfl
  obtain ⟨e, text, he, htext, -, hiff⟩ :=
    @snippet_ink_kept_iff "total(x) + y" (by decide) (by decide)
  cases hparse.symm.trans he
  cases (hprint false 0).symm.trans (htext false 0)
  refine ⟨hparse, hprint, fun hkept => ?_⟩
  have hcall : IsCall (trim "total(x) + y".toList) "total".toList "x".toList " + y".toList :=
    ⟨by decide, by decide, by decide⟩
  exact hiff.mp hkept _ .refl ⟨_, _, _, hcall, by decide⟩

end Componentry.Snippet

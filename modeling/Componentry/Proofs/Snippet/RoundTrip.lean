import Componentry.Proofs.Script.Token
import Componentry.Proofs.Snippet
import Mathlib.Data.List.TakeWhile

/-!
# Printed phrases are parsed again

A snippet is not parsed as a program: the first recogniser that knows its shape decides, and it looks
at little more than the first characters.  Phrases are the expressions for which this is enough.

**Main statement.** The text of a phrase, and of an arrow function around a phrase, is parsed as the
expression that it was printed from (`parse_expressionText`).

`Says cs e` is what carries the induction: the text `cs` is parsed as `e`, and its ends are such that
nothing is lost when it is trimmed and no other recogniser takes it for its own.
-/

namespace Componentry.Snippet

open Script (Node expressionText expressionTexts fewDigits precedence)
open Text

/-! ## Phrases -/

/-- Whether `c` stands for itself between double quotes. -/
def isPlain (c : Char) : Bool :=
  c != '"' && c != '\\' && 0x20 ≤ c.toNat

/-- The expressions that the recognisers know from their text. -/
inductive Phrase : Node → Prop
  | name {n : String} (h : isWord n.toList = true) : Phrase (.name n)
  | number {n : Nat} (h : fewDigits n) : Phrase (.number (.int n))
  | text {s : String} (h : s.toList.all isPlain = true) : Phrase (.text s)
  | member {path : List String} (hne : path ≠ []) (h : ∀ w ∈ path, isWord w.toList = true) :
    Phrase (.member (.name propsName) (.name (joined "." path)))
  | call {callee : String} {arguments : List Node} (hc : isWord callee.toList = true)
    (ha : ∀ a ∈ arguments, Phrase a)
    (hs : ∀ a ∈ arguments, ∀ text, expressionText false 0 a = .ok text → ',' ∉ text.toList) :
    Phrase (.call (.name callee) arguments)
  | binary {operator left : String} {right : Node} (ho : operator ∈ ["+", "-", "*", "/"])
    (hl : isWord left.toList = true) (hr : Phrase right)
    (hp : ∀ inner l r, right = .binary inner l r → precedence operator < precedence inner) :
    Phrase (.binary operator (.name left) right)

/-- Phrases, and arrow functions around them. -/
inductive Sentence : Node → Prop
  | phrase {e : Node} (h : Phrase e) : Sentence e
  | arrow {params : List String} {body : Node} (hp : ∀ p ∈ params, isWord p.toList = true)
    (h : Phrase body) : Sentence (.arrow (params.map .name) body)
  | arrowBlock {params : List String} (hp : ∀ p ∈ params, isWord p.toList = true) :
    Sentence (.arrow (params.map .name) (.block []))

/-! ## Characters -/

theorem toNat_of_isWordPart {c : Char} (h : isWordPart c = true) :
    0x24 ≤ c.toNat ∧ c.toNat ≤ 0x7A := by
  simp only [isWordPart, isWordStart, Bool.or_eq_true, Bool.and_eq_true, decide_eq_true_eq,
    beq_iff_eq, Char.le_def, UInt32.le_iff_toNat_le] at h
  rcases h with (((h | h) | rfl) | rfl) | h
  · change 97 ≤ c.toNat ∧ c.toNat ≤ 122 at h
    omega
  · change 65 ≤ c.toNat ∧ c.toNat ≤ 90 at h
    omega
  · decide
  · decide
  · change 48 ≤ c.toNat ∧ c.toNat ≤ 57 at h
    omega

/-- No character that leaves ink in ASCII is blank. -/
theorem isBlank_of_toNat {c : Char} (h : 0x21 ≤ c.toNat ∧ c.toNat ≤ 0x7E) : isBlank c = false := by
  simp only [isBlank, Bool.or_eq_false_iff, Bool.and_eq_false_iff, decide_eq_false_iff_not,
    beq_eq_false_iff_ne]
  omega

theorem isBlank_of_isWordPart {c : Char} (h : isWordPart c = true) : isBlank c = false := by
  have hc := toNat_of_isWordPart h
  exact isBlank_of_toNat (by omega)

theorem isWordPart_of_isWordStart {c : Char} (h : isWordStart c = true) : isWordPart c = true := by
  rw [isWordPart, h, Bool.true_or]

theorem all_isWordPart {w : List Char} (h : isWord w = true) : w.all isWordPart = true := by
  match w, h with
  | c :: rest, h =>
    obtain ⟨hc, hrest⟩ := Bool.and_eq_true_iff.mp h
    rw [List.all_cons, isWordPart_of_isWordStart hc, hrest]
    rfl

theorem isWordPart_of_mem {w : List Char} (h : isWord w = true) {c : Char} (hc : c ∈ w) :
    isWordPart c = true :=
  List.all_eq_true.mp (all_isWordPart h) c hc

theorem not_mem_of_isWord {w : List Char} (h : isWord w = true) {c : Char}
    (hc : isWordPart c = false) : c ∉ w := by
  intro hm
  rw [isWordPart_of_mem h hm] at hc
  cases hc

/-! ## Ends -/

/-- A text whose first and last characters are not blank, and which does not start like an arrow
function or a block. -/
structure Firm (cs : List Char) : Prop where
  head : ∃ c rest, cs = c :: rest ∧ isBlank c = false ∧ c ≠ '(' ∧ c ≠ '\x7b'
  last : ∃ before c, cs = before ++ [c] ∧ isBlank c = false

namespace Firm

variable {cs : List Char}

theorem trim_eq (h : Firm cs) : trim cs = cs := by
  refine trim_eq_self ?_ ?_
  · obtain ⟨c, rest, rfl, hc, -, -⟩ := h.head
    simpa using hc
  · obtain ⟨before, c, rfl, hc⟩ := h.last
    simpa using hc

theorem trim_space (h : Firm cs) : trim (' ' :: cs) = cs := by
  have hspace : trimLeft (' ' :: cs) = trimLeft cs := rfl
  rw [trim, hspace]
  exact h.trim_eq

theorem ne_nil (h : Firm cs) : cs ≠ [] := by
  obtain ⟨c, rest, rfl, -⟩ := h.head
  exact List.cons_ne_nil c rest

/-- A text without blanks, parentheses and braces. -/
theorem of_forall (hne : cs ≠ [])
    (h : ∀ c ∈ cs, isBlank c = false ∧ c ≠ '(' ∧ c ≠ '\x7b') : Firm cs :=
  ⟨⟨cs.head hne, cs.tail, (List.cons_head_tail hne).symm, h _ (List.head_mem hne)⟩,
    ⟨cs.dropLast, cs.getLast hne, (List.dropLast_append_getLast hne).symm,
      (h _ (List.getLast_mem hne)).1⟩⟩

theorem of_isWord (h : isWord cs = true) : Firm cs := by
  refine of_forall ?_ fun c hc => ⟨isBlank_of_isWordPart (isWordPart_of_mem h hc), ?_, ?_⟩
  · rintro rfl
    cases h
  · rintro rfl
    exact not_mem_of_isWord h (by decide) hc
  · rintro rfl
    exact not_mem_of_isWord h (by decide) hc

theorem append_last (h : Firm cs) (between : List Char) {c : Char} (hc : isBlank c = false) :
    Firm (cs ++ between ++ [c]) := by
  obtain ⟨d, rest, rfl, hd⟩ := h.head
  exact ⟨⟨d, rest ++ between ++ [c], rfl, hd⟩, ⟨d :: rest ++ between, c, rfl, hc⟩⟩

/-- What starts with one firm text and ends with another is firm. -/
theorem append {ds : List Char} (h : Firm cs) (between : List Char) (hd : Firm ds) :
    Firm (cs ++ between ++ ds) := by
  obtain ⟨before, d, rfl, hblank⟩ := hd.last
  rw [List.append_assoc, ← List.append_assoc between, ← List.append_assoc]
  exact h.append_last (between ++ before) hblank

end Firm

/-! ## What the recognisers make of a text -/

/-- What the recognisers make of a text that is trimmed already. -/
def recognized (t : List Char) : Except Fault Node :=
  match memberPart? t with
  | some member => .ok (.member (.name propsName) (.name (String.ofList member)))
  | none =>
    match callParts? t with
    | some (name, args) =>
      if (trim args).isEmpty then .ok (.call (.name (String.ofList name)) [])
      else do
        let nodes ← (splitOn ',' args).mapM expressionOfChars
        return .call (.name (String.ofList name)) nodes
    | none =>
      match binaryParts? t with
      | some (word, op, operand) => do
        let right ← expressionOfChars operand
        return .binary op.toString (.name (String.ofList word)) right
      | none => atom t

theorem expressionOfChars_eq (cs : List Char) : expressionOfChars cs = recognized (trim cs) := by
  rw [expressionOfChars, recognized]
  dsimp only
  cases memberPart? (trim cs) with
  | some member => rfl
  | none =>
    dsimp only
    split
    · next name args hc =>
      rw [hc]
      dsimp only
      rw [List.mapM_subtype fun piece _ => rfl, List.unattach_attach]
    · next hc =>
      rw [hc]
      dsimp only
      split
      · next hb => rw [hb]
      · next hb => rw [hb]

/-- The text is parsed as the expression, and nothing is lost when it is trimmed. -/
structure Says (cs : List Char) (e : Node) : Prop where
  firm : Firm cs
  parsed : recognized cs = .ok e

theorem Says.expressionOfChars_eq {cs : List Char} {e : Node} (h : Says cs e) :
    expressionOfChars cs = .ok e := by
  rw [Snippet.expressionOfChars_eq, h.firm.trim_eq, h.parsed]

theorem Says.expressionOfChars_space {cs : List Char} {e : Node} (h : Says cs e) :
    expressionOfChars (' ' :: cs) = .ok e := by
  rw [Snippet.expressionOfChars_eq, h.firm.trim_space, h.parsed]

/-! ### The word at the start -/

theorem splitWord_append_of_head {w rest : List Char} (hw : isWord w = true)
    (hr : rest.head?.all (fun c => !isWordPart c) = true) : splitWord (w ++ rest) = (w, rest) := by
  match w, hw with
  | c :: w, hw =>
    obtain ⟨hc, hparts⟩ := Bool.and_eq_true_iff.mp hw
    obtain ⟨htake, hdrop⟩ := Script.takeWhile_append_of_head hparts hr
    rw [List.cons_append, splitWord, if_pos hc, htake, hdrop]

theorem splitWord_of_not_start {c : Char} {rest : List Char} (h : isWordStart c = false) :
    splitWord (c :: rest) = ([], c :: rest) := by
  rw [splitWord, h, if_neg Bool.false_ne_true]

section Word

variable {cs w rest : List Char} (hs : splitWord cs = (w, rest))

include hs

theorem memberPart?_eq_none (hr : rest.head? ≠ some '.') : memberPart? cs = none := by
  unfold memberPart?
  split
  · next member =>
    have hprops : splitWord ("props".toList ++ '.' :: member) = ("props".toList, '.' :: member) :=
      splitWord_append_of_head (by decide) rfl
    cases hs.symm.trans hprops
    exact absurd rfl hr
  · rfl

theorem callParts?_eq_none (hr : rest.head? ≠ some '(') : callParts? cs = none := by
  rw [callParts?, hs]
  split
  · rfl
  · next he =>
    cases he
    exact absurd rfl hr
  · rfl

theorem binaryParts?_eq_none (hr : w = [] ∨ rest = []) : binaryParts? cs = none := by
  rw [binaryParts?, hs]
  rcases hr with rfl | rfl
  · rfl
  · cases w <;> rfl

end Word

/-! ## The shapes of phrases -/

theorem says_name {w : List Char} (h : isWord w = true) : Says w (.name (String.ofList w)) := by
  have hs : splitWord w = (w, []) := by
    have hsplit : splitWord (w ++ []) = (w, []) := splitWord_append_of_head h rfl
    rwa [List.append_nil] at hsplit
  refine ⟨.of_isWord h, ?_⟩
  rw [recognized, memberPart?_eq_none hs (by simp), callParts?_eq_none hs (by simp),
    binaryParts?_eq_none hs (.inr rfl)]
  exact if_pos h

/-- A text that starts with no word is a quoted text, an integer, or kept as it is. -/
theorem recognized_of_not_start {c : Char} {rest : List Char} (h : isWordStart c = false)
    (hd : c ≠ '.' ∧ c ≠ '(') : recognized (c :: rest) = atom (c :: rest) := by
  have hs : splitWord (c :: rest) = ([], c :: rest) := splitWord_of_not_start h
  rw [recognized, memberPart?_eq_none hs (by simpa using hd.1),
    callParts?_eq_none hs (by simpa using hd.2), binaryParts?_eq_none hs (.inl rfl)]

theorem flatMap_quotedChar {cs : List Char} (h : cs.all isPlain = true) :
    cs.flatMap quotedChar = cs := by
  induction cs with
  | nil => rfl
  | cons c cs ih =>
    obtain ⟨hc, hcs⟩ := Bool.and_eq_true_iff.mp h
    have hself : quotedChar c = [c] := by
      simp only [isPlain, Bool.and_eq_true, bne_iff_ne, decide_eq_true_eq] at hc
      obtain ⟨⟨hq, hb⟩, hn⟩ := hc
      have hcontrol : ∀ d : Char, d.toNat < 0x20 → c ≠ d := by
        rintro d hd rfl
        omega
      rw [quotedChar, if_neg hq, if_neg hb, if_neg (hcontrol _ (by decide)),
        if_neg (hcontrol _ (by decide)), if_neg (hcontrol _ (by decide)),
        if_neg (hcontrol _ (by decide)), if_neg (hcontrol _ (by decide)), if_neg (Nat.not_lt.mpr hn)]
    rw [List.flatMap_cons, hself, ih hcs]
    rfl

/-- A text between quotation marks is one, whatever stands between them. -/
theorem says_quoted {mark : Char} (hm : mark = '"' ∨ mark = '\'') (cs : List Char) :
    Says (mark :: (cs ++ [mark])) (.text (String.ofList cs)) := by
  have hblank : isBlank mark = false ∧ mark ≠ '(' ∧ mark ≠ '\x7b' := by
    rcases hm with rfl | rfl <;> decide
  have hother : isWordStart mark = false ∧ mark ≠ '.' ∧ mark ≠ '(' := by
    rcases hm with rfl | rfl <;> decide
  have hquote : (mark == '\'' || mark == '"' || mark == '`') = true := by
    rcases hm with rfl | rfl <;> decide
  refine ⟨⟨⟨mark, cs ++ [mark], rfl, hblank⟩, ⟨mark :: cs, mark, rfl, hblank.1⟩⟩, ?_⟩
  -- a quote starts no word, so that nothing in the text is looked at
  have hword : isWord (mark :: (cs ++ [mark])) = false := by
    rw [isWord, hother.1]
    rfl
  rw [recognized_of_not_start hother.1 hother.2, atom, hword, if_neg Bool.false_ne_true,
    if_pos hquote, List.dropLast_concat]

theorem says_text {cs : List Char} (h : cs.all isPlain = true) :
    Says (quotedChars cs) (.text (String.ofList cs)) := by
  rw [quotedChars, flatMap_quotedChar h]
  exact says_quoted (.inl rfl) cs

/-! ### Integers -/

theorem digitValue?_of_isDigit {c : Char} (h : c.isDigit = true) :
    digitValue? c = some (c.toNat - 48) := by
  have hall : ∀ k ∈ List.range 10, digitValue? (Char.ofNat (48 + k)) = some k := by decide
  have hc : 48 ≤ c.toNat ∧ c.toNat ≤ 57 := Char.isDigit_iff_toNat.mp h
  have hk := hall (c.toNat - 48) (List.mem_range.mpr (by omega))
  rwa [show 48 + (c.toNat - 48) = c.toNat by omega, Char.ofNat_toNat] at hk

/-- The digits of a number denote it. -/
theorem natOfDigits_toDigits (n : Nat) : natOfDigits (Nat.toDigits 10 n) = n := by
  have hfold : ∀ (cs : List Char) (init : Nat), (∀ c ∈ cs, c.isDigit = true) →
      cs.foldl (fun n c => 10 * n + (digitValue? c).getD 0) init = Nat.ofDigitChars 10 cs init := by
    intro cs
    induction cs with
    | nil => exact fun init _ => rfl
    | cons c cs ih =>
      intro init h
      obtain ⟨hc, hcs⟩ := List.forall_mem_cons.mp h
      rw [List.foldl_cons, digitValue?_of_isDigit hc, ih _ hcs]
      rfl
  rw [natOfDigits, hfold _ 0 fun c hc => Nat.isDigit_of_mem_toDigits (by decide) (by decide) hc]
  exact Nat.ofDigitChars_ten_toDigits

theorem says_number {n : Nat} (h : fewDigits n) : Says n.repr.toList (.number (.int n)) := by
  have hdigits : ∀ c ∈ n.repr.toList, c.isDigit = true := by
    rw [Nat.toList_repr]
    exact fun c hc => Nat.isDigit_of_mem_toDigits (by decide) (by decide) hc
  have hvalue : natOfDigits n.repr.toList = n := by
    rw [Nat.toList_repr, natOfDigits_toDigits]
  have hall : n.repr.toList.all isDigit = true := by
    refine List.all_eq_true.mpr fun c hc => ?_
    rw [isDigit, digitValue?_of_isDigit (hdigits c hc)]
    rfl
  have hlength : ¬ digitLimit < n.repr.toList.length := Nat.not_lt.mpr h
  obtain ⟨c, rest, hcs, hc⟩ := Script.exists_toList_repr n
  rw [hcs] at hdigits hvalue hall hlength ⊢
  have hother : ∀ d : Char, d.isDigit = false → c ≠ d := by
    rintro d hd rfl
    rw [hc] at hd
    cases hd
  have hstart : isWordStart c = false := (Bool.or_eq_false_iff.mp (Script.isDigit_only hc).2).1
  refine ⟨.of_forall (List.cons_ne_nil c rest) fun d hd => ?_, ?_⟩
  · have hd : 48 ≤ d.toNat ∧ d.toNat ≤ 57 := Char.isDigit_iff_toNat.mp (hdigits d hd)
    refine ⟨isBlank_of_toNat (by omega), ?_, ?_⟩
    · rintro rfl
      exact absurd hd (by decide)
    · rintro rfl
      exact absurd hd (by decide)
  · have hword : isWord (c :: rest) = false := by
      rw [isWord, hstart]
      rfl
    have hquote : (c == '\'' || c == '"' || c == '`') = false := by
      simp [hother '\'' (by decide), hother '"' (by decide), hother '`' (by decide)]
    rw [recognized_of_not_start hstart ⟨hother _ (by decide), hother _ (by decide)⟩, atom, hword,
      if_neg Bool.false_ne_true, hquote, if_neg Bool.false_ne_true, if_pos hall, if_neg hlength,
      hvalue]

/-! ### Members -/

theorem firm_path : ∀ {path : List String}, path ≠ [] → (∀ w ∈ path, isWord w.toList = true) →
    Firm (joined "." path).toList
  | [w], _, h => .of_isWord (h w List.mem_cons_self)
  | w :: v :: path, _, h => by
    obtain ⟨hw, hpath⟩ := List.forall_mem_cons.mp h
    rw [joined, String.toList_append, String.toList_append]
    · exact (Firm.of_isWord hw).append _ (firm_path (List.cons_ne_nil v path) hpath)
    · exact List.cons_ne_nil v path

theorem says_member {path : List String} (hne : path ≠ [])
    (h : ∀ w ∈ path, isWord w.toList = true) :
    Says ("props.".toList ++ (joined "." path).toList)
      (.member (.name propsName) (.name (joined "." path))) := by
  have hprops : Firm "props".toList := .of_isWord (by decide)
  refine ⟨hprops.append ['.'] (firm_path hne h), ?_⟩
  have hpart : memberPart? ("props.".toList ++ (joined "." path).toList) =
      some (joined "." path).toList := rfl
  rw [recognized, hpart]
  dsimp only
  rw [String.ofList_toList]

/-! ### Calls -/

theorem beforeLast?_eq_none_iff {c : Char} {cs : List Char} : beforeLast? c cs = none ↔ c ∉ cs := by
  induction cs with
  | nil => simp [beforeLast?]
  | cons d cs ih =>
    rw [beforeLast?, List.mem_cons, not_or, ← ih]
    cases beforeLast? c cs with
    | some before => simp
    | none => simp [eq_comm]

theorem beforeLast?_append {c : Char} {after : List Char} (h : c ∉ after) (before : List Char) :
    beforeLast? c (before ++ c :: after) = some before := by
  induction before with
  | nil =>
    rw [List.nil_append, beforeLast?, beforeLast?_eq_none_iff.mpr h]
    exact if_pos rfl
  | cons d before ih => rw [List.cons_append, beforeLast?, ih]

/-- A call ends with its last parenthesis, so that those inside the arguments do no harm. -/
theorem callParts?_append {name tail : List Char} (hn : isWord name = true) (ht : ')' ∉ tail)
    (args : List Char) : callParts? (name ++ '(' :: (args ++ ')' :: tail)) = some (name, args) := by
  rw [callParts?, splitWord_append_of_head hn rfl]
  split
  · next he =>
    cases he
    cases hn
  · next he =>
    cases he
    rw [beforeLast?_append ht]
    rfl
  · next hno => exact absurd rfl (hno _ _)

theorem splitOn_cons_of_ne {sep c : Char} {cs piece : List Char} {rest : List (List Char)}
    (hc : c ≠ sep) (h : splitOn sep cs = piece :: rest) :
    splitOn sep (c :: cs) = (c :: piece) :: rest := by
  rw [splitOn, h]
  exact if_neg hc

theorem splitOn_append {sep : Char} {cs piece : List Char} {rest : List (List Char)}
    (h : splitOn sep cs = piece :: rest) : ∀ {ds : List Char}, sep ∉ ds →
    splitOn sep (ds ++ cs) = (ds ++ piece) :: rest
  | [], _ => h
  | _ :: _, hd =>
    splitOn_cons_of_ne (List.ne_of_not_mem_cons hd).symm
      (splitOn_append h (List.not_mem_of_not_mem_cons hd))

theorem splitOn_sep (sep : Char) (cs : List Char) :
    splitOn sep (sep :: cs) = [] :: splitOn sep cs := by
  rw [splitOn]
  cases hs : splitOn sep cs with
  | nil => exact absurd hs (splitOn_ne_nil sep cs)
  | cons piece rest => exact if_pos rfl

/-- What is joined is cut again, with a blank before each piece but the first. -/
theorem splitOn_joined : ∀ {s : String} {rest : List String}, (∀ t ∈ s :: rest, ',' ∉ t.toList) →
    splitOn ',' (joined ", " (s :: rest)).toList = s.toList :: rest.map fun t => ' ' :: t.toList
  | s, [], h => by
    have hs : splitOn ',' (s.toList ++ []) = [s.toList ++ []] :=
      splitOn_append rfl (h s List.mem_cons_self)
    rwa [List.append_nil] at hs
  | s, t :: rest, h => by
    obtain ⟨hs, hrest⟩ := List.forall_mem_cons.mp h
    have hblank : splitOn ',' (' ' :: (joined ", " (t :: rest)).toList) =
        (t :: rest).map fun t => ' ' :: t.toList :=
      splitOn_cons_of_ne (by decide) (splitOn_joined hrest)
    have hcut := splitOn_append (splitOn_sep ',' (' ' :: (joined ", " (t :: rest)).toList)) hs
    rw [hblank, List.append_nil] at hcut
    rw [joined, String.toList_append, String.toList_append, List.append_assoc]
    · exact hcut
    · exact List.cons_ne_nil t rest

/-- The texts are parsed as the expressions, one after another, and none can be cut at a comma. -/
abbrev Listed (texts : List String) (es : List Node) : Prop :=
  List.Forall₂ (fun t e => Says t.toList e ∧ ',' ∉ t.toList) texts es

theorem Listed.mapM_space {texts : List String} {es : List Node} (h : Listed texts es) :
    (texts.map fun t => ' ' :: t.toList).mapM expressionOfChars = .ok es := by
  induction h with
  | nil => rfl
  | cons h _ ih =>
    rw [List.map_cons, List.mapM_cons, h.1.expressionOfChars_space, ih]
    rfl

theorem Listed.forall_not_mem {texts : List String} {es : List Node} (h : Listed texts es) :
    ∀ t ∈ texts, ',' ∉ t.toList := by
  induction h with
  | nil => exact List.forall_mem_nil _
  | cons h _ ih => exact List.forall_mem_cons.mpr ⟨h.2, ih⟩

theorem Listed.mapM_splitOn {t : String} {texts : List String} {es : List Node}
    (h : Listed (t :: texts) es) :
    (splitOn ',' (joined ", " (t :: texts)).toList).mapM expressionOfChars = .ok es := by
  rw [splitOn_joined h.forall_not_mem]
  cases h with
  | cons ht htexts =>
    rw [List.mapM_cons, ht.1.expressionOfChars_eq, Listed.mapM_space htexts]
    rfl

theorem trim_joined_ne_nil {t : String} (h : Firm t.toList) (sep : String) (texts : List String) :
    trim (joined sep (t :: texts)).toList ≠ [] := by
  obtain ⟨c, cs, hcs, hc, -⟩ := h.head
  obtain ⟨rest, hrest⟩ : ∃ rest, (joined sep (t :: texts)).toList = c :: rest := by
    cases texts with
    | nil => exact ⟨cs, hcs⟩
    | cons v texts =>
      rw [joined, String.toList_append, String.toList_append, hcs]
      · exact ⟨_, rfl⟩
      · exact List.cons_ne_nil v texts
  rw [hrest, trim, trimLeft, List.dropWhile_cons_of_neg (Bool.eq_false_iff.mp hc), trimRight, ne_eq,
    List.reverse_eq_nil_iff, List.dropWhile_eq_nil_iff]
  intro hall
  exact Bool.eq_false_iff.mp hc (hall c (by simp))

theorem says_call {callee : List Char} {texts : List String} {es : List Node}
    (hc : isWord callee = true) (h : Listed texts es) :
    Says (callee ++ '(' :: (joined ", " texts).toList ++ [')'])
      (.call (.name (String.ofList callee)) es) := by
  refine ⟨(Firm.of_isWord hc).append_last _ (by decide), ?_⟩
  rw [List.append_assoc, List.cons_append]
  have hs : splitWord (callee ++ '(' :: ((joined ", " texts).toList ++ [')'])) =
      (callee, '(' :: ((joined ", " texts).toList ++ [')'])) := splitWord_append_of_head hc rfl
  have hparts := callParts?_append hc List.not_mem_nil (joined ", " texts).toList
  rw [recognized, memberPart?_eq_none hs (by simp), hparts]
  dsimp only
  cases h with
  | nil => rfl
  | cons h hrest =>
    rw [Listed.mapM_splitOn (.cons h hrest), if_neg]
    · rfl
    · rw [List.isEmpty_iff]
      exact trim_joined_ne_nil h.1.firm _ _

/-! ### Binary expressions -/

/-- Whatever is false of each of the four operators. -/
theorem not_of_isOperator {p : Char → Bool} (h : ['+', '-', '*', '/'].all (!p ·) = true) {op : Char}
    (ho : isOperator op = true) : p op = false := by
  simp only [isOperator, Bool.or_eq_true, beq_iff_eq] at ho
  simp only [List.all_cons, List.all_nil, Bool.and_true, Bool.and_eq_true, Bool.not_eq_true'] at h
  rcases ho with ((rfl | rfl) | rfl) | rfl
  · exact h.1
  · exact h.2.1
  · exact h.2.2.1
  · exact h.2.2.2

section Binary

variable {word gap operand : List Char} {op : Char} (hw : isWord word = true)
  (hg : gap.all isBlank = true) (ho : isOperator op = true)

include hg ho

/-- What follows the word of a binary expression starts with a blank or an operator. -/
theorem head?_gap {c : Char} (h : (gap ++ op :: operand).head? = some c) :
    isBlank c = true ∨ isOperator c = true := by
  cases gap with
  | nil =>
    cases h
    exact .inr ho
  | cons g gap =>
    cases h
    rw [List.all_cons, Bool.and_eq_true] at hg
    exact .inl hg.1

include hw

theorem splitWord_binary :
    splitWord (word ++ gap ++ op :: operand) = (word, gap ++ op :: operand) := by
  rw [List.append_assoc]
  refine splitWord_append_of_head hw ?_
  cases hc : (gap ++ op :: operand).head? with
  | none => rfl
  | some c =>
    have hpart : isWordPart c = false := by
      rcases head?_gap hg ho hc with hblank | hop
      · refine Bool.eq_false_iff.mpr fun hpart => ?_
        exact Bool.eq_false_iff.mp (isBlank_of_isWordPart hpart) hblank
      · exact not_of_isOperator rfl hop
    simp [hpart]

/-- A word, blanks and an operator in front of something are a binary expression. -/
theorem binaryParts?_append (hne : operand ≠ []) :
    binaryParts? (word ++ gap ++ op :: operand) = some (word, op, operand) := by
  have hblank : ¬ isBlank op = true := Bool.eq_false_iff.mp (not_of_isOperator rfl ho)
  have htrim : trimLeft (gap ++ op :: operand) = op :: operand := by
    rw [trimLeft, List.dropWhile_append_of_pos (List.all_eq_true.mp hg),
      List.dropWhile_cons_of_neg hblank]
  rw [binaryParts?, splitWord_binary hw hg ho]
  cases word with
  | nil => cases hw
  | cons c word =>
    dsimp only
    rw [htrim]
    cases operand with
    | nil => exact absurd rfl hne
    | cons d operand => exact if_pos ho

/-- A binary expression is neither a member nor a call. -/
theorem recognized_binary (hne : operand ≠ []) :
    recognized (word ++ gap ++ op :: operand) = (do
      let right ← expressionOfChars operand
      return .binary op.toString (.name (String.ofList word)) right) := by
  have hother : ∀ c : Char, isBlank c = false → isOperator c = false →
      (gap ++ op :: operand).head? ≠ some c := by
    intro c hblank hop hc
    rcases head?_gap hg ho hc with h | h
    · exact Bool.eq_false_iff.mp hblank h
    · exact Bool.eq_false_iff.mp hop h
  have hs : splitWord (word ++ gap ++ op :: operand) = (word, gap ++ op :: operand) :=
    splitWord_binary hw hg ho
  rw [recognized, memberPart?_eq_none hs (hother '.' rfl rfl),
    callParts?_eq_none hs (hother '(' rfl rfl), binaryParts?_append hw hg ho hne]

end Binary

theorem says_binary {left right : List Char} {op : Char} {e : Node} (hl : isWord left = true)
    (ho : isOperator op = true) (h : Says right e) :
    Says (left ++ [' ', op, ' '] ++ right) (.binary op.toString (.name (String.ofList left)) e) := by
  refine ⟨(Firm.of_isWord hl).append _ h.firm, ?_⟩
  have hgap : [' '].all isBlank = true := rfl
  have hbinary := recognized_binary hl hgap ho (List.cons_ne_nil ' ' right)
  rw [h.expressionOfChars_space] at hbinary
  simpa using hbinary

/-! ## Phrases are parsed again -/

/-- The text of an expression is the same everywhere, and it is parsed as the expression. -/
def Parsed (e : Node) : Prop :=
  ∃ text, (∀ annotated level, expressionText annotated level e = .ok text) ∧ Says text.toList e

theorem exists_expressionTexts : ∀ {es : List Node}, (∀ e ∈ es, Parsed e) →
    (∀ e ∈ es, ∀ text, expressionText false 0 e = .ok text → ',' ∉ text.toList) →
    ∃ texts, (∀ annotated level, expressionTexts annotated level es = .ok texts) ∧ Listed texts es
  | [], _, _ => ⟨[], fun _ _ => by rw [expressionTexts], .nil⟩
  | e :: es, h, hs => by
    obtain ⟨⟨text, htext, hparse⟩, hes⟩ := List.forall_mem_cons.mp h
    obtain ⟨hcomma, hcommas⟩ := List.forall_mem_cons.mp hs
    obtain ⟨texts, htexts, hlisted⟩ := exists_expressionTexts hes hcommas
    refine ⟨text :: texts, fun annotated level => ?_,
      .cons ⟨hparse, hcomma text (htext false 0)⟩ hlisted⟩
    rw [expressionTexts, htext, htexts]
    rfl

theorem needsParentheses_eq_false {operator : String} {right : Node} (h : Phrase right)
    (hp : ∀ inner l r, right = .binary inner l r → precedence operator < precedence inner) :
    right.needsParentheses operator false = false := by
  cases h with
  | binary =>
    have hlt := hp _ _ _ rfl
    simp only [Script.Node.needsParentheses, Bool.or_eq_false_iff, decide_eq_false_iff_not,
      Bool.and_eq_false_iff, beq_eq_false_iff_ne]
    omega
  | _ => rfl

theorem exists_isOperator {operator : String} (h : operator ∈ ["+", "-", "*", "/"]) :
    ∃ op : Char, op.toString = operator ∧ isOperator op = true := by
  simp only [List.mem_cons, List.not_mem_nil, or_false] at h
  rcases h with rfl | rfl | rfl | rfl
  exacts [⟨'+', rfl, rfl⟩, ⟨'-', rfl, rfl⟩, ⟨'*', rfl, rfl⟩, ⟨'/', rfl, rfl⟩]

theorem Phrase.parsed {e : Node} (h : Phrase e) : Parsed e := by
  induction h with
  | @name n h =>
    refine ⟨n, fun annotated level => by rw [expressionText], ?_⟩
    have hparse := says_name h
    rwa [String.ofList_toList] at hparse
  | @number n h =>
    refine ⟨n.repr, fun annotated level => ?_, says_number h⟩
    rw [expressionText, Script.Number.text, integerText, integerText?, if_neg (Nat.not_lt.mpr h),
      if_neg (Int.not_lt.mpr (Int.natCast_nonneg n)), Int.natAbs_natCast]
  | @text s h =>
    refine ⟨quoted s, fun annotated level => by rw [expressionText], ?_⟩
    have hparse := says_text h
    rw [String.ofList_toList] at hparse
    rwa [quoted, String.toList_ofList]
  | @member path hne h =>
    refine ⟨propsName ++ "." ++ joined "." path, fun annotated level => ?_, ?_⟩
    · rw [expressionText, expressionText]
      rfl
    · rw [String.toList_append, String.toList_append]
      exact says_member hne h
  | @call callee arguments hc ha hs ih =>
    obtain ⟨texts, htexts, hlisted⟩ := exists_expressionTexts ih hs
    refine ⟨callee ++ Script.parenthesized (joined ", " texts), fun annotated level => ?_, ?_⟩
    · rw [expressionText, expressionText, htexts]
      rfl
    · have hparse := says_call hc hlisted
      rw [String.ofList_toList] at hparse
      rw [Script.parenthesized, String.toList_append, String.toList_append, String.toList_append,
        ← List.append_assoc]
      exact hparse
  | @binary operator left right ho hl hr hp ih =>
    obtain ⟨text, htext, hparse⟩ := ih
    obtain ⟨op, rfl, hop⟩ := exists_isOperator ho
    refine ⟨left ++ " " ++ op.toString ++ " " ++ text, fun annotated level => ?_, ?_⟩
    · rw [expressionText, expressionText, htext]
      change Except.ok (_ ++ Script.parenthesizedIf (right.needsParentheses _ false) text) = _
      rw [needsParentheses_eq_false hr hp]
      rfl
    · have hbinary := says_binary hl hop hparse
      rw [String.ofList_toList] at hbinary
      simpa [Char.toString] using hbinary

/-! ## Arrow functions -/

theorem parameters_joined {params : List String} (h : ∀ p ∈ params, isWord p.toList = true) :
    parameters (joined ", " params).toList = params.map .name := by
  cases params with
  | nil => rfl
  | cons p params =>
    have hcomma : ∀ t ∈ p :: params, ',' ∉ t.toList :=
      fun t ht => not_mem_of_isWord (h t ht) (by decide)
    obtain ⟨hp, hparams⟩ := List.forall_mem_cons.mp h
    have hpieces : (splitOn ',' (joined ", " (p :: params)).toList).map trim =
        (p :: params).map String.toList := by
      rw [splitOn_joined hcomma, List.map_cons, List.map_cons, (Firm.of_isWord hp).trim_eq,
        List.map_map]
      congr 1
      exact List.map_congr_left fun t ht => (Firm.of_isWord (hparams t ht)).trim_space
    rw [parameters, hpieces, List.filterMap_map, ← List.filterMap_eq_map]
    refine List.filterMap_congr fun t ht => ?_
    have hne : ¬ t.toList.isEmpty = true := by
      rw [List.isEmpty_iff]
      exact (Firm.of_isWord (h t ht)).ne_nil
    rw [Function.comp_apply, Function.comp_apply, if_neg hne, String.ofList_toList]

theorem not_mem_joined {c : Char} {sep : String} (hsep : c ∉ sep.toList) : ∀ {texts : List String},
    (∀ t ∈ texts, c ∉ t.toList) → c ∉ (joined sep texts).toList
  | [], _ => List.not_mem_nil
  | [t], h => h t List.mem_cons_self
  | t :: v :: texts, h => by
    obtain ⟨ht, htexts⟩ := List.forall_mem_cons.mp h
    rw [joined, String.toList_append, String.toList_append, List.mem_append, List.mem_append]
    · exact not_or_intro (not_or_intro ht hsep) (not_mem_joined hsep htexts)
    · exact List.cons_ne_nil v texts

theorem arrowParts?_eq {params : List Char} (h : ')' ∉ params) (body : List Char) :
    arrowParts? ('(' :: (params ++ ')' :: ' ' :: '=' :: '>' :: ' ' :: body)) =
      some (params, ' ' :: body) := by
  have hparams : params.all (· != ')') = true :=
    List.all_eq_true.mpr fun c hc => bne_iff_ne.mpr (ne_of_mem_of_not_mem hc h)
  have hhead : (')' :: ' ' :: '=' :: '>' :: ' ' :: body).head?.all (fun c => !(c != ')')) = true :=
    rfl
  obtain ⟨htake, hdrop⟩ := Script.takeWhile_append_of_head hparams hhead
  rw [arrowParts?, htake, hdrop]
  rfl

/-- The text of an arrow function with a given text for a body. -/
def arrowText (params : List String) (body : String) : String :=
  Script.parenthesized (joined ", " params) ++ " => " ++ body

/-- What the body of an arrow function becomes: nothing is read of a block. -/
def arrowBody : List Char → Except Fault Node
  | '{' :: _ => .ok (.block [])
  | body => expressionOfChars body

theorem parse_arrowText {params : List String} {body : String}
    (hp : ∀ p ∈ params, isWord p.toList = true)
    (hb : ∃ before c, body.toList = before ++ [c] ∧ isBlank c = false) :
    parse (arrowText params body) =
      (arrowBody (trim (' ' :: body.toList))).map (.arrow (params.map .name)) := by
  have hchars : (arrowText params body).toList =
      '(' :: ((joined ", " params).toList ++ ')' :: ' ' :: '=' :: '>' :: ' ' :: body.toList) := by
    simp [arrowText, Script.parenthesized]
  have hclose : ')' ∉ (joined ", " params).toList :=
    not_mem_joined (by decide) fun p h => not_mem_of_isWord (hp p h) (by decide)
  have htrim : trim (arrowText params body).toList = (arrowText params body).toList := by
    obtain ⟨before, c, hbody, hc⟩ := hb
    refine trim_eq_self ?_ ?_
    · rw [hchars]
      rintro d ⟨rfl⟩
      decide
    · rw [arrowText, String.toList_append, hbody, ← List.append_assoc, List.getLast?_concat]
      rintro d ⟨rfl⟩
      exact hc
  rw [parse, ofChars, htrim, hchars, arrowParts?_eq hclose]
  dsimp only
  rw [parameters_joined hp]
  split
  · next htext =>
    rw [htext]
    rfl
  · next hopen =>
    rw [arrowBody]
    · exact bind_pure_comp _ _
    · exact hopen

theorem arrowParts?_eq_none {cs : List Char} (h : cs.head? ≠ some '(') : arrowParts? cs = none := by
  unfold arrowParts?
  split
  · next rest => exact absurd (rfl : ('(' :: rest).head? = some '(') h
  · rfl

theorem Says.parse_eq {text : String} {e : Node} (h : Says text.toList e) : parse text = .ok e := by
  have hno : arrowParts? text.toList = none := by
    obtain ⟨c, rest, hcs, -, hc, -⟩ := h.firm.head
    rw [hcs]
    exact arrowParts?_eq_none fun he => hc (Option.some.inj he)
  rw [parse, ofChars, h.firm.trim_eq, hno]
  exact h.expressionOfChars_eq

theorem Says.arrowBody_eq {text : String} {e : Node} (h : Says text.toList e) :
    arrowBody text.toList = .ok e := by
  have he := h.expressionOfChars_eq
  obtain ⟨c, rest, hcs, -, -, hc⟩ := h.firm.head
  rw [hcs] at he ⊢
  rw [arrowBody, he]
  rintro rest ⟨⟩
  exact hc rfl

theorem Phrase.ne_block {e : Node} (h : Phrase e) : ∀ body, e = .block body → False := by
  rintro body rfl
  cases h

theorem Phrase.isObject_eq_false {e : Node} (h : Phrase e) : e.isObject = false := by
  cases h <;> rfl

/-- **What is printed is parsed again.** The text of a phrase, or of an arrow function around one,
is the same in every place, and its parse is what was printed. -/
theorem parse_expressionText {e : Node} (h : Sentence e) :
    ∃ text, (∀ annotated level, expressionText annotated level e = .ok text) ∧
      parse text = .ok e := by
  cases h with
  | phrase h =>
    obtain ⟨text, htext, hparse⟩ := h.parsed
    exact ⟨text, htext, hparse.parse_eq⟩
  | @arrow params body hp h =>
    obtain ⟨text, htext, hparse⟩ := h.parsed
    refine ⟨arrowText params text, fun annotated level => ?_, ?_⟩
    · rw [expressionText, Script.mapM_nameText, htext, h.isObject_eq_false]
      · rfl
      · exact h.ne_block
    · rw [parse_arrowText hp hparse.firm.last, hparse.firm.trim_space, hparse.arrowBody_eq]
      rfl
  | @arrowBlock params hp =>
    refine ⟨arrowText params "\x7b\x7d", fun annotated level => ?_, ?_⟩
    · rw [expressionText, Script.mapM_nameText, Script.statementTexts]
      rfl
    · exact parse_arrowText hp ⟨['\x7b'], '\x7d', by decide⟩

/-- The text `(a, b) => f(a + props.x.y, "s)=>")`. -/
theorem parse_expressionText_nested :
    ∃ text, (∀ annotated level, expressionText annotated level
        (.arrow [.name "a", .name "b"] (.call (.name "f")
          [.binary "+" (.name "a") (.member (.name "props") (.name "x.y")), .text "s)=>"])) =
            .ok text) ∧
      parse text = .ok (.arrow [.name "a", .name "b"] (.call (.name "f")
        [.binary "+" (.name "a") (.member (.name "props") (.name "x.y")), .text "s)=>"])) := by
  have hsum : Phrase (.binary "+" (.name "a") (.member (.name "props") (.name "x.y"))) :=
    .binary (by decide) (by decide) (@Phrase.member ["x", "y"] (by decide) (by decide))
      (by rintro inner l r ⟨⟩)
  have htext : Phrase (.text "s)=>") := .text (by decide)
  refine parse_expressionText (@Sentence.arrow ["a", "b"] _ (by decide) (.call (by decide) ?_ ?_))
  · exact List.forall_mem_cons.mpr ⟨hsum, List.forall_mem_singleton.mpr htext⟩
  · refine List.forall_mem_cons.mpr ⟨?_, List.forall_mem_singleton.mpr ?_⟩
    · intro text h
      simp only [expressionText] at h
      cases h
      decide
    · intro text h
      simp only [expressionText] at h
      cases h
      decide

end Componentry.Snippet

import Componentry.Proofs.Script.StringLiteral
import Componentry.Text.Name

/-!
# Tokens

The text of an expression is read in two steps.  This file does the first: it cuts a text into
tokens by the lexical rules of ECMAScript.  Blank characters between tokens say nothing, and of
several marks that a text starts with the longest one counts.

Of the lexical grammar, the part is read that printed expressions can use.  Comments, templates,
regular expressions and numbers with a fraction, an exponent or another base are refused.  Which
letters beyond ASCII may stand in a name is left open: every one that is not blank may.

## Putting texts together

`Spells next s ts` says that `s` is read as the tokens `ts` whatever follows it, as long as the next
character satisfies `next`.  A text that is put together from pieces is read piece by piece
(`Spells.append`).

## Termination

A token has at least one character (`length_token?`).
-/

namespace Componentry.Script

/-- A token. -/
inductive Token where
  /-- A name or a reserved word. -/
  | word (w : String)
  | text (s : String)
  | number (n : Nat)
  /-- A bracket, a separator or an operator. -/
  | mark (m : String)
  deriving DecidableEq, Repr

/-! ## Classes of characters -/

/-- The blank characters: they separate tokens without being part of one. -/
def spaces : List Char :=
  ['\t', '\n', '\x0b', '\x0c', '\r', ' ', '\u00a0', '\u1680', '\u2000', '\u2001', '\u2002', '\u2003',
   '\u2004', '\u2005', '\u2006', '\u2007', '\u2008', '\u2009', '\u200a', '\u2028', '\u2029', '\u202f',
   '\u205f', '\u3000', '\ufeff']

/-- Whether `c` is blank. -/
def isSpace (c : Char) : Bool :=
  spaces.contains c

/-- Whether `c` is a character beyond ASCII that may stand in a name. -/
def isWideLetter (c : Char) : Bool :=
  0x80 ≤ c.toNat && !isSpace c

/-- Whether `c` may start a name. -/
def isNameStart (c : Char) : Bool :=
  Text.isWordStart c || isWideLetter c

/-- Whether `c` may stand inside a name. -/
def isNamePart (c : Char) : Bool :=
  Text.isWordPart c || isWideLetter c

/-- Whether the whole text is a name. -/
def isName : List Char → Bool
  | [] => false
  | c :: rest => isNameStart c && rest.all isNamePart

theorem isNamePart_of_isNameStart {c : Char} (h : isNameStart c = true) : isNamePart c = true := by
  simp only [isNameStart, isNamePart, Text.isWordPart, Bool.or_eq_true] at h ⊢
  rcases h with h | h
  · exact Or.inl (Or.inl h)
  · exact Or.inr h

/-- Every word is a name. -/
theorem isName_of_isWord {cs : List Char} (h : Text.isWord cs = true) : isName cs = true := by
  match cs, h with
  | c :: rest, h =>
    simp only [Text.isWord, isName, Bool.and_eq_true, List.all_eq_true] at h ⊢
    refine ⟨?_, fun d hd => ?_⟩
    · rw [isNameStart, h.1, Bool.true_or]
    · rw [isNamePart, h.2 d hd, Bool.true_or]

/-! ## One token -/

/-- The marks, longer ones first. -/
def marks : List String :=
  [">>>=",
   "...", "===", "!==", "**=", "<<=", ">>=", ">>>", "&&=", "||=", "??=",
   "=>", "==", "!=", "<=", ">=", "&&", "||", "??", "?.", "++", "--", "+=", "-=", "*=", "/=", "%=",
   "&=", "|=", "^=", "<<", ">>", "**",
   "\x7b", "\x7d", "(", ")", "[", "]", ".", ";", ",", "<", ">", "+", "-", "*", "/", "%", "&", "|",
   "^", "!", "~", "?", ":", "="]

/-- The longest mark that a text starts with, and what follows it. -/
def mark? (cs : List Char) : Option (String × List Char) :=
  (marks.find? fun m => m.toList.isPrefixOf cs).map fun m => (m, cs.drop m.toList.length)

/-- The integer that a text starts with, and what follows it.  A zero in front of other digits and a
digit, letter or point behind the number are refused. -/
def number? (cs : List Char) : Option (Nat × List Char) :=
  let digits := cs.takeWhile Char.isDigit
  let rest := cs.dropWhile Char.isDigit
  if digits.head? == some '0' && 1 < digits.length then none
  else if rest.head?.any fun c => isNamePart c || c == '.' then none
  else some (Nat.ofDigitChars 10 digits 0, rest)

/-- Whether a comment starts here. -/
def startsComment : List Char → Bool
  | '/' :: '/' :: _ | '/' :: '*' :: _ => true
  | _ => false

/-- The token that a text starts with, and what follows it. -/
def token? (cs : List Char) : Option (Token × List Char) :=
  match cs with
  | [] => none
  | c :: _ =>
    if isNameStart c then
      some (.word (String.ofList (cs.takeWhile isNamePart)), cs.dropWhile isNamePart)
    else if c.isDigit then (number? cs).map fun (n, rest) => (.number n, rest)
    else if c = '"' || c = '\'' then (stringLiteral? cs).map fun (s, rest) => (.text s, rest)
    else if startsComment cs then none
    else (mark? cs).map fun (m, rest) => (.mark m, rest)

/-! ## What follows a token is shorter -/

theorem length_codes? {mark : Char} {cs rest : List Char} {codes : List Nat}
    (h : codes? mark cs = some (codes, rest)) : rest.length < cs.length := by
  fun_induction codes? mark cs generalizing codes rest with
  | case1 => simp at h
  | case2 =>
    obtain ⟨-, rfl⟩ := Prod.mk.inj (Option.some.inj h)
    simp
  | case3 _ _ after he _ ih =>
    obtain ⟨⟨more, after'⟩, hc, hp⟩ := Option.map_eq_some_iff.mp h
    obtain ⟨-, rfl⟩ := Prod.mk.inj hp
    have h1 := ih hc
    have h2 := length_escape? he
    simp only [List.length_cons]
    omega
  | case4 => simp at h
  | case5 => simp at h
  | case6 _ _ _ _ _ ih =>
    obtain ⟨⟨more, after'⟩, hc, hp⟩ := Option.map_eq_some_iff.mp h
    obtain ⟨-, rfl⟩ := Prod.mk.inj hp
    have h1 := ih hc
    simp only [List.length_cons]
    omega

theorem length_stringLiteral? {cs rest : List Char} {s : String}
    (h : stringLiteral? cs = some (s, rest)) : rest.length < cs.length := by
  match cs, h with
  | mark :: more, h =>
    simp only [stringLiteral?] at h
    split at h
    · obtain ⟨⟨codes, after⟩, hc, h⟩ := Option.bind_eq_some_iff.mp h
      obtain ⟨text, -, h⟩ := Option.bind_eq_some_iff.mp h
      obtain ⟨-, rfl⟩ := Prod.mk.inj (Option.some.inj h)
      have := length_codes? hc
      simp only [List.length_cons]
      omega
    · simp at h

theorem length_mark? {cs rest : List Char} {m : String} (h : mark? cs = some (m, rest)) :
    rest.length < cs.length := by
  obtain ⟨m', hm, hp⟩ := Option.map_eq_some_iff.mp h
  obtain ⟨rfl, rfl⟩ := Prod.mk.inj hp
  have hall : ∀ m ∈ marks, 0 < m.toList.length := by decide
  have hpos := hall m' (List.mem_of_find?_eq_some hm)
  have hpre := List.find?_some (p := fun m : String => m.toList.isPrefixOf cs) hm
  have hle := (List.isPrefixOf_iff_prefix.mp hpre).length_le
  rw [List.length_drop]
  omega

/-- What `p` runs over at the start of a text is taken off it. -/
theorem length_dropWhile_lt {p : Char → Bool} {c : Char} {cs : List Char} (h : p c = true) :
    ((c :: cs).dropWhile p).length < (c :: cs).length := by
  rw [List.dropWhile_cons_of_pos h, List.length_cons]
  exact Nat.lt_succ_of_le (List.dropWhile_sublist p).length_le

/-- A token has at least one character. -/
theorem length_token? {cs rest : List Char} {t : Token} (h : token? cs = some (t, rest)) :
    rest.length < cs.length := by
  match cs, h with
  | c :: more, h =>
    simp only [token?] at h
    split at h
    · next hc =>
      obtain ⟨-, rfl⟩ := Prod.mk.inj (Option.some.inj h)
      exact length_dropWhile_lt (isNamePart_of_isNameStart hc)
    split at h
    · next hc =>
      obtain ⟨⟨n, after⟩, hn, hp⟩ := Option.map_eq_some_iff.mp h
      obtain ⟨-, rfl⟩ := Prod.mk.inj hp
      simp only [number?] at hn
      split at hn
      · simp at hn
      split at hn
      · simp at hn
      · obtain ⟨-, rfl⟩ := Prod.mk.inj (Option.some.inj hn)
        exact length_dropWhile_lt hc
    split at h
    · obtain ⟨⟨s, after⟩, hs, hp⟩ := Option.map_eq_some_iff.mp h
      obtain ⟨-, rfl⟩ := Prod.mk.inj hp
      exact length_stringLiteral? hs
    split at h
    · simp at h
    · obtain ⟨⟨m, after⟩, hm, hp⟩ := Option.map_eq_some_iff.mp h
      obtain ⟨-, rfl⟩ := Prod.mk.inj hp
      exact length_mark? hm

/-! ## All tokens -/

/-- The tokens of a text. -/
def tokens (cs : List Char) : Option (List Token) :=
  match cs with
  | [] => some []
  | c :: rest =>
    if isSpace c then tokens rest
    else
      match _h : token? (c :: rest) with
      | some (t, after) => (tokens after).map (t :: ·)
      | none => none
termination_by cs.length
decreasing_by
  · simp
  · exact length_token? _h

theorem tokens_space {c : Char} (h : isSpace c = true) (rest : List Char) :
    tokens (c :: rest) = tokens rest := by
  rw [tokens, if_pos h]

theorem tokens_token {c : Char} {cs rest : List Char} {t : Token} (hs : isSpace c = false)
    (h : token? (c :: cs) = some (t, rest)) :
    tokens (c :: cs) = (tokens rest).map (t :: ·) := by
  rw [tokens, if_neg (by simp [hs])]
  split
  · next h' =>
    rw [h] at h'
    obtain ⟨rfl, rfl⟩ := Prod.mk.inj (Option.some.inj h')
    rfl
  · next h' => rw [h] at h'; simp at h'

/-! ## Texts that spell tokens -/

/-- The text `s` is read as the tokens `ts`, whatever follows it, if the next character satisfies
`next`. -/
def Spells (next : Char → Bool) (s : List Char) (ts : List Token) : Prop :=
  ∀ rest : List Char, rest.head?.all next = true → tokens (s ++ rest) = (tokens rest).map (ts ++ ·)

/-- Any character may follow. -/
def anyNext : Char → Bool := fun _ => true

/-- A character may follow a name. -/
def afterName (c : Char) : Bool := !isNamePart c

/-- A character may follow a number. -/
def afterNumber (c : Char) : Bool := !isNamePart c && c != '.'

namespace Spells

variable {p q : Char → Bool} {s s' : List Char} {ts ts' : List Token}

theorem mono (h : Spells p s ts) (hpq : ∀ c, q c = true → p c = true) : Spells q s ts := by
  intro rest hrest
  refine h rest ?_
  cases hr : rest.head? with
  | none => rfl
  | some c =>
    rw [hr] at hrest
    exact hpq c hrest

theorem nil : Spells anyNext [] [] := by
  intro rest _
  cases h : tokens rest <;> simp [h]

/-- A text with nothing after it. -/
theorem tokens_eq (h : Spells p s ts) : tokens s = some ts := by
  have he := h [] rfl
  rw [List.append_nil, tokens] at he
  simpa using he

/-- Texts one after another, if what starts the second one may follow the first. -/
theorem append (h : Spells p s ts) (h' : Spells q s' ts')
    (hnext : ∀ rest : List Char, rest.head?.all q = true → (s' ++ rest).head?.all p = true) :
    Spells q (s ++ s') (ts ++ ts') := by
  intro rest hrest
  rw [List.append_assoc, h _ (hnext rest hrest), h' rest hrest, Option.map_map]
  congr 1
  funext us
  simp

/-- A text and then one that starts with a character which may follow it. -/
theorem append_cons {c : Char} (h : Spells p s ts) (h' : Spells q (c :: s') ts')
    (hc : p c = true) : Spells q (s ++ c :: s') (ts ++ ts') :=
  h.append h' (fun _ _ => hc)

/-- A text after one that anything may follow. -/
theorem after (h : Spells anyNext s ts) (h' : Spells q s' ts') :
    Spells q (s ++ s') (ts ++ ts') :=
  h.append h' (fun rest _ => by cases (s' ++ rest).head? <;> rfl)

/-- Blank space spells nothing. -/
theorem space : ∀ {s : List Char}, s.all isSpace = true → Spells anyNext s []
  | [], _ => nil
  | c :: s, h => by
    intro rest hrest
    obtain ⟨hc, hs⟩ := Bool.and_eq_true_iff.mp h
    rw [List.cons_append, tokens_space hc]
    exact space hs rest hrest

/-- A token that starts a text, with what follows it left over. -/
theorem of_token? {c : Char} {t : Token} (hs : isSpace c = false)
    (h : ∀ rest : List Char, rest.head?.all q = true →
      token? (c :: (s ++ rest)) = some (t, rest)) : Spells q (c :: s) [t] := by
  intro rest hrest
  rw [List.cons_append, tokens_token hs (h rest hrest)]
  rfl

end Spells

/-! ## The pieces of a printed text -/

theorem isSpace_of_isNameStart {c : Char} (h : isNameStart c = true) : isSpace c = false := by
  have hall : spaces.all (fun d => !isNameStart d) = true := by decide
  cases hs : isSpace c with
  | false => rfl
  | true =>
    rw [isSpace, List.contains_iff_mem] at hs
    have hc := List.all_eq_true.mp hall c hs
    rw [h] at hc
    exact absurd hc Bool.false_ne_true

/-- What a run of characters of a class is cut off at. -/
theorem takeWhile_append_of_head {p : Char → Bool} {s rest : List Char} (hs : s.all p = true)
    (hr : rest.head?.all (fun c => !p c) = true) :
    (s ++ rest).takeWhile p = s ∧ (s ++ rest).dropWhile p = rest := by
  have hall : ∀ c ∈ s, p c = true := List.all_eq_true.mp hs
  rw [List.takeWhile_append_of_pos hall, List.dropWhile_append_of_pos hall]
  cases rest with
  | nil => simp
  | cons c rest =>
    have hc : p c = false := by simpa using hr
    simp [hc]

/-- A name is read up to its end. -/
theorem token?_word {w rest : List Char} (h : isName w = true)
    (hr : rest.head?.all afterName = true) :
    token? (w ++ rest) = some (.word (String.ofList w), rest) := by
  match w, h with
  | c :: cs, h =>
    simp only [isName, Bool.and_eq_true] at h
    obtain ⟨hstart, hparts⟩ := h
    have hall : (c :: cs).all isNamePart = true := by
      rw [List.all_cons, isNamePart_of_isNameStart hstart, hparts]
      rfl
    obtain ⟨htake, hdrop⟩ := takeWhile_append_of_head hall hr
    rw [List.cons_append] at htake hdrop ⊢
    rw [token?, if_pos hstart, htake, hdrop]

/-- **A name spells one word.** -/
theorem spells_word {w : String} (h : isName w.toList = true) :
    Spells afterName w.toList [.word w] := by
  have htoken := fun rest => @token?_word w.toList rest h
  rw [String.ofList_toList] at htoken
  match hw : w.toList, h with
  | c :: cs, h =>
    rw [hw] at htoken
    simp only [isName, Bool.and_eq_true] at h
    exact Spells.of_token? (isSpace_of_isNameStart h.1) htoken

/-- A quoted text is read up to its closing mark. -/
theorem token?_quoted (s : String) (rest : List Char) :
    token? ((Text.quoted s).toList ++ rest) = some (.text s, rest) := by
  have h := stringLiteral?_quotedChars s.toList rest
  rw [String.ofList_toList, Text.quotedChars, List.cons_append] at h
  rw [Text.quoted, String.toList_ofList, Text.quotedChars, List.cons_append, token?,
    if_neg (by decide), if_neg (by decide), if_pos (by decide), h]
  rfl

/-- **A quoted text spells itself.** -/
theorem spells_quoted (s : String) : Spells anyNext (Text.quoted s).toList [.text s] := by
  have htoken := token?_quoted s
  have hs : (Text.quoted s).toList = Text.quotedChars s.toList := String.toList_ofList
  rw [hs, Text.quotedChars] at htoken ⊢
  exact Spells.of_token? (by decide) fun rest _ => htoken rest

/-- The digits of a number do not start with a zero, unless it is the only one. -/
theorem head_toDigits_ne_zero {n : Nat} (h : 10 ≤ n) : (Nat.toDigits 10 n).head? ≠ some '0' := by
  induction n using Nat.strongRecOn with
  | ind n ih =>
    rw [Nat.toDigits_of_base_le (by decide) h]
    by_cases hlt : n / 10 < 10
    · have hall : ∀ d ∈ List.range 10, d ≠ 0 → d.digitChar ≠ '0' := by decide
      rw [Nat.toDigits_of_lt_base hlt]
      simpa using hall (n / 10) (List.mem_range.mpr hlt) (by omega)
    · have hne : Nat.toDigits 10 (n / 10) ≠ [] := Nat.toDigits_ne_nil
      rw [List.head?_append, List.head?_eq_some_head hne, Option.some_or, ← List.head?_eq_some_head]
      exact ih (n / 10) (by omega) (by omega)

theorem isNamePart_of_isDigit {c : Char} (h : c.isDigit = true) : isNamePart c = true := by
  have h2 : ('0' ≤ c && c ≤ '9') = true := h
  rw [isNamePart, Text.isWordPart, h2, Bool.or_true, Bool.true_or]

theorem number?_toDigits (n : Nat) {rest : List Char} (h : rest.head?.all afterNumber = true) :
    number? (Nat.toDigits 10 n ++ rest) = some (n, rest) := by
  have hdigits : (Nat.toDigits 10 n).all Char.isDigit = true :=
    List.all_eq_true.mpr fun c hc => Nat.isDigit_of_mem_toDigits (by decide) (by decide) hc
  have hend : rest.head?.all (fun c => !c.isDigit) = true := by
    cases rest with
    | nil => rfl
    | cons c rest =>
      simp only [List.head?_cons, Option.all_some, afterNumber, Bool.and_eq_true] at h ⊢
      cases hd : c.isDigit with
      | false => rfl
      | true => simp [isNamePart_of_isDigit hd] at h
  have hnext : (rest.head?.any fun c => isNamePart c || c == '.') = false := by
    cases rest with
    | nil => rfl
    | cons c rest => simpa [afterNumber] using h
  -- a number of one digit may be zero, a longer one does not start with it
  have hzero : ((Nat.toDigits 10 n).head? == some '0' && decide (1 < (Nat.toDigits 10 n).length))
      = false := by
    by_cases hn : n < 10
    · simp [Nat.toDigits_of_lt_base hn]
    · have hne := head_toDigits_ne_zero (n := n) (by omega)
      simp [hne]
  obtain ⟨htake, hdrop⟩ := takeWhile_append_of_head hdigits hend
  simp only [number?, htake, hdrop, hzero, hnext, Nat.ofDigitChars_ten_toDigits]
  rfl

/-- A digit starts a number and nothing else. -/
theorem isDigit_only {c : Char} (h : c.isDigit = true) :
    isSpace c = false ∧ isNameStart c = false := by
  have hall : ∀ k ∈ List.range 10, isSpace (Char.ofNat (48 + k)) = false ∧
      isNameStart (Char.ofNat (48 + k)) = false := by decide
  have hc : 48 ≤ c.toNat ∧ c.toNat ≤ 57 := Char.isDigit_iff_toNat.mp h
  have hk := hall (c.toNat - 48) (List.mem_range.mpr (by omega))
  rwa [show 48 + (c.toNat - 48) = c.toNat by omega, Char.ofNat_toNat] at hk

theorem exists_toList_repr (n : Nat) : ∃ c cs, n.repr.toList = c :: cs ∧ c.isDigit = true := by
  rw [Nat.toList_repr]
  match hd : Nat.toDigits 10 n with
  | [] => exact absurd hd Nat.toDigits_ne_nil
  | c :: cs =>
    exact ⟨c, cs, rfl, Nat.isDigit_of_mem_toDigits (by decide) (by decide) (hd ▸ List.mem_cons_self)⟩

/-- **The digits of a number spell it.** -/
theorem spells_number (n : Nat) : Spells afterNumber n.repr.toList [.number n] := by
  obtain ⟨c, cs, hd, hc⟩ := exists_toList_repr n
  obtain ⟨hspace, hstart⟩ := isDigit_only hc
  rw [hd]
  refine Spells.of_token? hspace (fun rest hrest => ?_)
  have hn := number?_toDigits n hrest
  rw [← Nat.toList_repr, hd, List.cons_append] at hn
  rw [token?, if_neg (by simp [hstart]), if_pos hc, hn]
  rfl

/-- A mark is read where no comment starts and no longer mark does. -/
theorem spells_mark {next : Char → Bool} {c : Char} {s : List Char} {m : String}
    (hc : isSpace c = false ∧ isNameStart c = false ∧ c.isDigit = false ∧ c ≠ '"' ∧ c ≠ '\'')
    (h : ∀ rest : List Char, rest.head?.all next = true →
      startsComment (c :: (s ++ rest)) = false ∧ mark? (c :: (s ++ rest)) = some (m, rest)) :
    Spells next (c :: s) [.mark m] := by
  obtain ⟨hspace, hstart, hdigit, hquote, hquote'⟩ := hc
  refine Spells.of_token? hspace (fun rest hrest => ?_)
  obtain ⟨hcomment, hmark⟩ := h rest hrest
  rw [token?, if_neg (by simp [hstart]), if_neg (by simp [hdigit]), if_neg (by simp [hquote, hquote']),
    if_neg (by simp [hcomment]), hmark]
  rfl

/-- The marks of one character that start no longer mark. -/
def brackets : List Char :=
  ['(', ')', '[', ']', '\x7b', '\x7d', ',', ':']

/-- A bracket, a comma or a colon is a mark, whatever follows it. -/
theorem spells_bracket {c : Char} (h : c ∈ brackets) :
    Spells anyNext [c] [.mark (String.ofList [c])] := by
  simp only [brackets, List.mem_cons, List.not_mem_nil, or_false] at h
  rcases h with rfl | rfl | rfl | rfl | rfl | rfl | rfl | rfl <;>
    exact spells_mark (by decide) (fun _ _ => ⟨rfl, rfl⟩)

/-- A point before a name. -/
theorem spells_dot : Spells isNameStart ['.'] [.mark "."] := by
  refine spells_mark (by decide) (fun rest hrest => ?_)
  cases rest with
  | nil => exact ⟨rfl, rfl⟩
  | cons c rest =>
    have hc : isNameStart c = true := hrest
    -- the only longer mark that starts with a point is the one of three points
    have hne : ('.' == c) = false := beq_false_of_ne (by rintro rfl; exact absurd hc (by decide))
    exact ⟨rfl, by simp [mark?, marks, List.isPrefixOf, hne]⟩

/-- A minus sign before a number. -/
theorem spells_minus : Spells Char.isDigit ['-'] [.mark "-"] := by
  refine spells_mark (by decide) (fun rest hrest => ?_)
  cases rest with
  | nil => exact ⟨rfl, rfl⟩
  | cons c rest =>
    have hc : c.isDigit = true := hrest
    have hne : ('-' == c) = false := beq_false_of_ne (by rintro rfl; exact absurd hc (by decide))
    have hne' : ('=' == c) = false := beq_false_of_ne (by rintro rfl; exact absurd hc (by decide))
    exact ⟨rfl, by simp [mark?, marks, List.isPrefixOf, hne, hne']⟩

end Componentry.Script

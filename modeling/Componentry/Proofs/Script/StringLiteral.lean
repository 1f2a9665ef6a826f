import Componentry.Text.Quoted

/-!
# Reading string literals

The ECMAScript rules for a string literal between double or single quotation marks.  Up to the
closing mark every character stands for itself, except that a backslash starts an escape sequence
and that a line feed or a carriage return may not occur.

Escapes name UTF-16 code units, so a literal is read in two steps: `codes?` gives the numbers, one
for each character or escape, and `joinHalves` puts a high and a low half together.  A literal with
a half that stands alone is no text and is not read.

**Main statement.** What `Text.quotedChars` writes is read as the text it was written for, and
reading stops behind its closing mark (`stringLiteral?_quotedChars`).

## Termination

An escape sequence has at least one character (`length_escape?`), so `codes?` goes to a shorter
text.
-/

namespace Componentry.Script

/-! ## Escape sequences -/

/-- Whether `c` is a hexadecimal digit. -/
def isHex (c : Char) : Bool :=
  (Text.hexValue? c).isSome

/-- Whether `c` ends a line. -/
def isLineEnd (c : Char) : Bool :=
  c == '\n' || c == '\r' || c == '\u2028' || c == '\u2029'

/-- The code of an escaped character without digits; all but six stand for themselves. -/
def escapedCode (c : Char) : Nat :=
  match c with
  | 'b' => 0x08
  | 't' => 0x09
  | 'n' => 0x0A
  | 'v' => 0x0B
  | 'f' => 0x0C
  | 'r' => 0x0D
  | c => c.toNat

/-- The code that hexadecimal digits denote. -/
def hexCode? (digits : List Char) : Option Nat :=
  if digits != [] && digits.all isHex && Text.natOfHex digits ≤ 0x10FFFF then
    some (Text.natOfHex digits)
  else none

/-- The codes that an escape sequence stands for, and what follows it; `cs` is the text behind the
backslash.  A backslash at the end of a line stands for nothing. -/
def escape? (cs : List Char) : Option (List Nat × List Char) :=
  match cs with
  | [] => none
  | 'u' :: '{' :: rest =>
    match rest.dropWhile isHex with
    | '}' :: after => (hexCode? (rest.takeWhile isHex)).map ([·], after)
    | _ => none
  | 'u' :: a :: b :: c :: d :: after => (hexCode? [a, b, c, d]).map ([·], after)
  | 'u' :: _ => none
  | 'x' :: a :: b :: after => (hexCode? [a, b]).map ([·], after)
  | 'x' :: _ => none
  | '\r' :: '\n' :: after => some ([], after)
  | c :: after =>
    if isLineEnd c then some ([], after)
    else if c == '0' && !after.head?.any Char.isDigit then some ([0], after)
    else if c.isDigit then none
    else some ([escapedCode c], after)

/-- An escape sequence has at least one character. -/
theorem length_escape? {cs after : List Char} {codes : List Nat}
    (h : escape? cs = some (codes, after)) : after.length < cs.length := by
  unfold escape? at h
  split at h
  · simp at h
  -- only between braces the number of digits is not fixed
  · next rest =>
    split at h
    · next after' hd =>
      obtain ⟨n, -, hn⟩ := Option.map_eq_some_iff.mp h
      obtain ⟨-, rfl⟩ := Prod.mk.inj hn
      have hle := (List.dropWhile_sublist isHex (l := rest)).length_le
      rw [hd] at hle
      simp only [List.length_cons] at hle ⊢
      omega
    · simp at h
  · obtain ⟨n, -, hn⟩ := Option.map_eq_some_iff.mp h
    obtain ⟨-, rfl⟩ := Prod.mk.inj hn
    simp only [List.length_cons]
    omega
  · simp at h
  · obtain ⟨n, -, hn⟩ := Option.map_eq_some_iff.mp h
    obtain ⟨-, rfl⟩ := Prod.mk.inj hn
    simp only [List.length_cons]
    omega
  · simp at h
  · obtain ⟨-, rfl⟩ := Prod.mk.inj (Option.some.inj h)
    simp only [List.length_cons]
    omega
  · split at h
    · obtain ⟨-, rfl⟩ := Prod.mk.inj (Option.some.inj h)
      simp
    · split at h
      · obtain ⟨-, rfl⟩ := Prod.mk.inj (Option.some.inj h)
        simp
      · split at h
        · simp at h
        · obtain ⟨-, rfl⟩ := Prod.mk.inj (Option.some.inj h)
          simp

/-! ## Literals -/

/-- The codes of a string literal up to its closing `mark`, and what follows the mark. -/
def codes? (mark : Char) (cs : List Char) : Option (List Nat × List Char) :=
  match cs with
  | [] => none
  | c :: rest =>
    if c = mark then some ([], rest)
    else if c = '\\' then
      match _h : escape? rest with
      | some (codes, after) => (codes? mark after).map fun (more, rest) => (codes ++ more, rest)
      | none => none
    else if c = '\n' || c = '\r' then none
    else (codes? mark rest).map fun (more, rest) => (c.toNat :: more, rest)
termination_by cs.length
decreasing_by
  · have := length_escape? _h
    simp only [List.length_cons]
    omega
  · simp

/-- Whether a code is the first half of a character. -/
def isHighHalf (n : Nat) : Bool :=
  0xD800 ≤ n && n ≤ 0xDBFF

/-- Whether a code is the second half of a character. -/
def isLowHalf (n : Nat) : Bool :=
  0xDC00 ≤ n && n ≤ 0xDFFF

/-- The codes with a first and a second half put together wherever they follow each other. -/
def joinHalves : List Nat → List Nat
  | high :: low :: rest =>
    if isHighHalf high && isLowHalf low then
      (0x10000 + (high - 0xD800) * 0x400 + (low - 0xDC00)) :: joinHalves rest
    else high :: joinHalves (low :: rest)
  | codes => codes

/-- The text with the given codes, unless one of them is no character. -/
def textOfCodes? (codes : List Nat) : Option String :=
  if codes.all fun n => decide n.isValidChar then some (String.ofList (codes.map Char.ofNat))
  else none

/-- The text that a string literal at the start of `cs` denotes, and what follows the literal. -/
def stringLiteral? (cs : List Char) : Option (String × List Char) :=
  match cs with
  | mark :: rest =>
    if mark = '"' || mark = '\'' then do
      let (codes, after) ← codes? mark rest
      let text ← textOfCodes? (joinHalves codes)
      return (text, after)
    else none
  | [] => none

/-! ## Reading what was quoted -/

theorem codes?_mark (mark : Char) (rest : List Char) :
    codes? mark (mark :: rest) = some ([], rest) := by
  rw [codes?, if_pos rfl]

/-- A character that stands for itself. -/
theorem codes?_cons {mark c : Char} {rest : List Char} (hm : c ≠ mark) (hb : c ≠ '\\')
    (hn : c ≠ '\n') (hr : c ≠ '\r') :
    codes? mark (c :: rest) =
      (codes? mark rest).map fun (more, rest) => (c.toNat :: more, rest) := by
  rw [codes?, if_neg hm, if_neg hb, if_neg (by simp [hn, hr])]

/-- An escape sequence. -/
theorem codes?_escape {mark : Char} {cs after : List Char} {codes : List Nat} (hm : '\\' ≠ mark)
    (h : escape? cs = some (codes, after)) :
    codes? mark ('\\' :: cs) =
      (codes? mark after).map fun (more, rest) => (codes ++ more, rest) := by
  rw [codes?, if_neg hm, if_pos rfl]
  split
  · next h' =>
    rw [h] at h'
    obtain ⟨rfl, rfl⟩ := Prod.mk.inj (Option.some.inj h')
    rfl
  · next h' => rw [h] at h'; simp at h'

/-- The escape of a control character by its number. -/
theorem escape?_hexDigits {n : Nat} (h : n < 0x20) (rest : List Char) :
    escape? ('u' :: (Text.hexDigits 4 n ++ rest)) = some ([n], rest) := by
  have hall : ∀ m ∈ List.range 0x20, (Text.hexDigits 4 m).length = 4 ∧
      (Text.hexDigits 4 m).head? = some '0' ∧ hexCode? (Text.hexDigits 4 m) = some m := by decide
  obtain ⟨hlen, hhead, hcode⟩ := hall n (List.mem_range.mpr h)
  -- the first digit is a zero, so that the sequence is not one with braces
  match hd : Text.hexDigits 4 n, hlen with
  | [a, b, c, d], _ =>
    rw [hd] at hhead hcode
    simp only [List.head?_cons, Option.some.injEq] at hhead
    subst hhead
    simp [escape?, hcode]

/-- **One quoted character is read as its code.** -/
theorem codes?_quotedChar (c : Char) (rest : List Char) :
    codes? '"' (Text.quotedChar c ++ rest) =
      (codes? '"' rest).map fun (more, rest) => (c.toNat :: more, rest) := by
  -- the short escapes are evaluated; controls by number and plain characters have lemmas
  have hshort : ∀ d : Char, escape? (d :: rest) = some ([c.toNat], rest) →
      codes? '"' (['\\', d] ++ rest) =
        (codes? '"' rest).map fun (more, rest) => (c.toNat :: more, rest) :=
    fun d hd => codes?_escape (by decide) hd
  unfold Text.quotedChar
  split
  · next h => subst h; exact hshort '"' rfl
  split
  · next h => subst h; exact hshort '\\' rfl
  split
  · next h => subst h; exact hshort 'n' rfl
  split
  · next h => subst h; exact hshort 'r' rfl
  split
  · next h => subst h; exact hshort 't' rfl
  split
  · next h => subst h; exact hshort 'b' rfl
  split
  · next h => subst h; exact hshort 'f' rfl
  split
  · next h => exact codes?_escape (by decide) (escape?_hexDigits h rest)
  · next hq hb hn hr _ _ _ _ => exact codes?_cons hq hb hn hr

/-- The codes of a quoted text are those of its characters. -/
theorem codes?_quoted : ∀ (cs rest : List Char),
    codes? '"' (cs.flatMap Text.quotedChar ++ '"' :: rest) = some (cs.map Char.toNat, rest)
  | [], rest => codes?_mark '"' rest
  | c :: cs, rest => by
    rw [List.flatMap_cons, List.append_assoc, codes?_quotedChar, codes?_quoted cs rest]
    rfl

/-- No character is half of another one. -/
theorem not_half (c : Char) : isHighHalf c.toNat = false ∧ isLowHalf c.toNat = false := by
  have hv : c.toNat.isValidChar := c.valid
  simp only [Nat.isValidChar] at hv
  simp only [isHighHalf, isLowHalf, Bool.and_eq_false_iff, decide_eq_false_iff_not]
  omega

theorem joinHalves_toNat : ∀ cs : List Char, joinHalves (cs.map Char.toNat) = cs.map Char.toNat
  | [] => rfl
  | [_] => rfl
  | c :: d :: cs => by
    have ih := joinHalves_toNat (d :: cs)
    simp only [List.map_cons] at ih ⊢
    rw [joinHalves, (not_half c).1, Bool.false_and, if_neg Bool.false_ne_true, ih]

theorem textOfCodes?_toNat (cs : List Char) :
    textOfCodes? (cs.map Char.toNat) = some (String.ofList cs) := by
  have hv : (cs.map Char.toNat).all (fun n => decide n.isValidChar) = true := by
    simp only [List.all_map, List.all_eq_true, Function.comp_apply, decide_eq_true_eq]
    intro c _
    exact c.valid
  have hc : (cs.map Char.toNat).map Char.ofNat = cs := by
    simp [Function.comp_def]
  rw [textOfCodes?, if_pos hv, hc]

/-- **A quoted text is read as itself, and reading stops behind its closing mark.** -/
theorem stringLiteral?_quotedChars (cs rest : List Char) :
    stringLiteral? (Text.quotedChars cs ++ rest) = some (String.ofList cs, rest) := by
  have h := codes?_quoted cs rest
  simp only [Text.quotedChars, List.cons_append, List.append_assoc, List.nil_append]
  simp [stringLiteral?, h, joinHalves_toNat, textOfCodes?_toNat]

end Componentry.Script

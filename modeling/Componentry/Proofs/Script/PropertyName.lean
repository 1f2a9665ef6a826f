import Componentry.Proofs.Script.Spelling

/-!
# The names of printed properties

A key whose text counts as an identifier name is printed as it is, every other one as a string literal.
A word and one line feed counts as an identifier name too.  It is printed without quotation marks, and
then the line feed is blank space between the name and the colon.

**Main statement.** The name that is read from a printed key is the key, unless that is a word and one
line feed (`propertyName?_shownKey`).
-/

namespace Componentry.Script

/-! ## Reading a name -/

/-- The name that a token gives to a property. -/
def Token.key? : Token → Option String
  | .word name | .text name => some name
  | _ => none

/-- What follows the colon that a text starts with. -/
def afterColon? (cs : List Char) : Option (List Char) :=
  match cs.dropWhile isSpace with
  | ':' :: after => some after
  | _ => none

/-- The name of the property that a text starts with, and what follows its colon. -/
def propertyName? (cs : List Char) : Option (String × List Char) := do
  let (token, rest) ← token? (cs.dropWhile isSpace)
  let name ← token.key?
  let after ← afterColon? rest
  return (name, after)

theorem dropWhile_isSpace_append {blank : List Char} (h : blank.all isSpace = true)
    (cs : List Char) : (blank ++ cs).dropWhile isSpace = cs.dropWhile isSpace :=
  List.dropWhile_append_of_pos (List.all_eq_true.mp h)

theorem afterColon?_append {blank : List Char} (h : blank.all isSpace = true) (after : List Char) :
    afterColon? (blank ++ ':' :: after) = some after := by
  rw [afterColon?, dropWhile_isSpace_append h]
  rfl

/-- A name stands behind its indentation. -/
theorem propertyName?_indent (level : Int) (cs : List Char) :
    propertyName? ((indent level).toList ++ cs) = propertyName? cs := by
  have hblank : (indent level).toList.all isSpace = true := by
    rw [indent, String.toList_ofList, List.all_replicate]
    simp [isSpace, spaces]
  rw [propertyName?, dropWhile_isSpace_append hblank]
  rfl

/-- A word is read as itself; the blank space behind it is skipped. -/
theorem propertyName?_word {word blank : List Char} (hw : Text.isWord word = true)
    (hb : blank.all isSpace = true) (after : List Char) :
    propertyName? (word ++ blank ++ ':' :: after) = some (String.ofList word, after) := by
  have hname := isName_of_isWord hw
  have hnext : (blank ++ ':' :: after).head?.all afterName = true := by
    cases blank with
    | nil => rfl
    | cons c blank =>
      simp only [List.all_cons, Bool.and_eq_true] at hb
      have hspaces : spaces.all afterName = true := by decide
      exact List.all_eq_true.mp hspaces c (List.contains_iff_mem.mp hb.1)
  have hstart : (word ++ (blank ++ ':' :: after)).dropWhile isSpace = word ++ (blank ++ ':' :: after) := by
    match word, hname with
    | c :: word, hname =>
      simp only [isName, Bool.and_eq_true] at hname
      rw [List.cons_append, List.dropWhile_cons_of_neg]
      simp [isSpace_of_isNameStart hname.1]
  rw [List.append_assoc, propertyName?, hstart, token?_word hname hnext]
  simp [Token.key?, afterColon?_append hb]

/-- A string literal is read as its text. -/
theorem propertyName?_quoted (s : String) (after : List Char) :
    propertyName? ((Text.quoted s).toList ++ ':' :: after) = some (s, after) := by
  have hcolon : afterColon? (':' :: after) = some after := rfl
  have hstart : ((Text.quoted s).toList ++ ':' :: after).dropWhile isSpace =
      (Text.quoted s).toList ++ ':' :: after := by
    rw [Text.quoted, String.toList_ofList, Text.quotedChars]
    rfl
  rw [propertyName?, hstart, token?_quoted]
  simp [Token.key?, hcolon]

/-! ## The keys of properties -/

/-- The key of a property: a name if its text counts as one. -/
def keyNode (key : String) : Node :=
  if Text.isIdentifierName key then .name key else .text key

/-- A key that is a word and one line feed. -/
def IsBrokenWord (key : String) : Prop :=
  ∃ word, Text.isWord word = true ∧ key.toList = word ++ ['\n']

instance (key : String) : Decidable (IsBrokenWord key) :=
  decidable_of_iff (key.toList.getLast? = some '\n' ∧ Text.isWord key.toList.dropLast = true) <| by
    constructor
    · rintro ⟨hl, hw⟩
      exact ⟨_, hw, (List.dropLast_append_getLast? _ hl).symm⟩
    · rintro ⟨word, hw, he⟩
      rw [he, List.getLast?_concat, List.dropLast_concat]
      exact ⟨rfl, hw⟩

/-- Every other key that counts as a name is a word. -/
theorem isWord_of_isIdentifierName {key : String} (h : Text.isIdentifierName key = true)
    (hb : ¬ IsBrokenWord key) : Text.isWord key.toList = true := by
  rw [Text.isIdentifierName, Text.withoutFinalNewline] at h
  split at h
  · next hlast =>
    exact absurd ⟨_, h, (List.dropLast_append_getLast? _ (beq_iff_eq.mp hlast)).symm⟩ hb
  · exact h

theorem keyNode_isKey {key : String} (h : ¬ IsBrokenWord key) : (keyNode key).isKey = true := by
  unfold keyNode
  split
  · next hn => exact isName_of_isWord (isWord_of_isIdentifierName hn h)
  · next hn => simpa [Node.isKey] using hn

/-- How a key is printed: as a literal, unless its text counts as an identifier name. -/
def shownKey (key : String) : String :=
  if Text.isIdentifierName key then key else Text.quoted key

theorem keyText_keyNode (key : String) : (keyNode key).keyText = .ok (shownKey key) := by
  unfold keyNode shownKey
  split
  · rfl
  · next h => rw [Node.keyText, if_neg h]

theorem IsBrokenWord.isIdentifierName {key : String} (h : IsBrokenWord key) :
    Text.isIdentifierName key = true := by
  obtain ⟨word, hw, hkey⟩ := h
  rw [Text.isIdentifierName, Text.withoutFinalNewline, hkey, List.getLast?_concat,
    List.dropLast_concat]
  exact hw

/-- No literal counts as an identifier name. -/
theorem not_isIdentifierName_quoted (s : String) : ¬ Text.isIdentifierName (Text.quoted s) = true := by
  intro h
  have hchars : (Text.quoted s).toList = '"' :: s.toList.flatMap Text.quotedChar ++ ['"'] := by
    rw [Text.quoted, String.toList_ofList, Text.quotedChars, List.cons_append]
  rw [Text.isIdentifierName, Text.withoutFinalNewline, hchars, List.getLast?_concat,
    if_neg (by decide), List.cons_append, Text.isWord] at h
  simp [Text.isWordStart] at h

theorem shownKey_eq_quoted_iff (key : String) :
    shownKey key = Text.quoted key ↔ ¬ Text.isIdentifierName key = true := by
  constructor
  · intro h hn
    rw [shownKey, if_pos hn] at h
    rw [h] at hn
    exact not_isIdentifierName_quoted key hn
  · intro h
    rw [shownKey, if_neg h]

/-- **The name of a printed key is the key, unless that is a word and one line feed.** -/
theorem propertyName?_shownKey (key : String) (after : List Char) :
    ∃ name, propertyName? ((shownKey key).toList ++ ':' :: after) = some (name, after) ∧
      (name = key ↔ ¬ IsBrokenWord key) := by
  by_cases hb : IsBrokenWord key
  · -- the line feed is skipped on the way to the colon
    rw [shownKey, if_pos hb.isIdentifierName]
    obtain ⟨word, hw, hkey⟩ := hb
    refine ⟨String.ofList word, ?_, ?_⟩
    · rw [hkey]
      exact propertyName?_word hw (by decide) after
    · refine iff_of_false ?_ (not_not_intro ⟨word, hw, hkey⟩)
      intro he
      rw [← he, String.toList_ofList] at hkey
      simpa using congrArg List.length hkey
  · by_cases hn : Text.isIdentifierName key = true
    · have hw := isWord_of_isIdentifierName hn hb
      have hread := propertyName?_word hw List.all_nil after
      rw [List.append_nil, String.ofList_toList] at hread
      rw [shownKey, if_pos hn]
      exact ⟨key, hread, iff_of_true rfl hb⟩
    · rw [shownKey, if_neg hn]
      exact ⟨key, propertyName?_quoted key after, iff_of_true rfl hb⟩

end Componentry.Script

/-!
# Identifier names

A word is a non-empty run of letters, digits, underscores and dollar signs of ASCII that does not
start with a digit.  A text counts as an identifier name when it is a word, or a word and one line
feed.
-/

namespace Componentry.Text

/-- Whether `c` may start a word. -/
def isWordStart (c : Char) : Bool :=
  ('a' ≤ c && c ≤ 'z') || ('A' ≤ c && c ≤ 'Z') || c == '_' || c == '$'

/-- Whether `c` may stand inside a word. -/
def isWordPart (c : Char) : Bool :=
  isWordStart c || ('0' ≤ c && c ≤ '9')

/-- Whether the whole text is a word. -/
def isWord : List Char → Bool
  | [] => false
  | c :: rest => isWordStart c && rest.all isWordPart

/-- The text without one line feed at its end. -/
def withoutFinalNewline (cs : List Char) : List Char :=
  if cs.getLast? == some '\n' then cs.dropLast else cs

/-- Whether a string is an identifier name. -/
def isIdentifierName (s : String) : Bool :=
  isWord (withoutFinalNewline s.toList)

/-- The word that a text starts with, if any, and what follows it. -/
def splitWord (cs : List Char) : List Char × List Char :=
  match cs with
  | [] => ([], [])
  | c :: rest => if isWordStart c then (c :: rest.takeWhile isWordPart, rest.dropWhile isWordPart)
    else ([], cs)

/-- A word and what follows it make up the text. -/
theorem splitWord_append (cs : List Char) : (splitWord cs).1 ++ (splitWord cs).2 = cs := by
  cases cs with
  | nil => rfl
  | cons c rest =>
    simp only [splitWord]
    split <;> simp

/-- What follows a word is no longer than the text. -/
theorem length_splitWord_snd_le (cs : List Char) : (splitWord cs).2.length ≤ cs.length := by
  have h := congrArg List.length (splitWord_append cs)
  simp only [List.length_append] at h
  omega

end Componentry.Text

/-!
# Patterns of names

A pattern of names is a row of pieces: a star, which stands for any characters, and pieces for one
character.  In brackets stand the characters and ranges of which the one character has to be, or
not to be, if the first character in the brackets is an exclamation mark.

* A bracket that is the first in the brackets, or the first behind the exclamation mark, is one of
  the characters.
* A bracket that is never closed is a character.
* A hyphen between two characters makes a range, unless the first of them already ends one.  A
  range that holds nothing is left out with its two ends.
-/

namespace Componentry

/-- A piece of a pattern of names. -/
inductive NamePiece where
  | star
  /-- One character within the ranges, or outside of all of them. -/
  | one (outside : Bool) (ranges : List (Char × Char))
  deriving DecidableEq, Repr

/-- A pattern of names. -/
abbrev NamePattern := List NamePiece

namespace NamePattern

/-! ## Brackets -/

/-- A character between brackets, or a hyphen that makes a range. -/
inductive BracketMark where
  | char (c : Char)
  | through
  deriving DecidableEq, Repr

/-- How many characters stand in the brackets, if the brackets are closed.  `cs` is the text behind
the opening bracket. -/
def bracketLength? (cs : List Char) : Option Nat :=
  let first := if cs.head? == some '!' then 1 else 0
  let first := if (cs.drop first).head? == some ']' then first + 1 else first
  let inner := (cs.drop first).takeWhile (· != ']')
  if first + inner.length < cs.length then some (first + inner.length) else none

/-- Cuts a text at hyphens, of which each has at least `skip` characters before it.  Behind a cut
the next hyphen has at least two.  At most `limit` cuts are made. -/
def cutAtHyphens : (limit skip : Nat) → List Char → List (List Char)
  | 0, _, cs => [cs]
  | limit + 1, skip, cs =>
    let later := (cs.drop skip).takeWhile (· != '-')
    if skip + later.length < cs.length then
      cs.take (skip + later.length) :: cutAtHyphens limit 2 (cs.drop (skip + later.length + 1))
    else [cs]

/-- The pieces between hyphens, where a hyphen at the end belongs to the last piece. -/
def hyphenPieces (inner : List Char) : List (List Char) :=
  let skip := if inner.head? == some '!' then 2 else 1
  let pieces := cutAtHyphens inner.length skip inner
  match pieces.reverse with
  | [] :: last :: before => ((last ++ ['-']) :: before).reverse
  | _ => pieces

/-- The pieces without the ranges that hold nothing. -/
def withoutEmptyRanges : List (List Char) → List (List Char)
  | [] => []
  | piece :: rest =>
    match piece.getLast?, withoutEmptyRanges rest with
    | some low, (high :: next) :: more =>
      if high < low then (piece.dropLast ++ next) :: more else piece :: (high :: next) :: more
    | _, rest => piece :: rest

/-- The pieces in a row, with a mark for a range between two of them. -/
def bracketMarks : List (List Char) → List BracketMark
  | [] => []
  | [piece] => piece.map .char
  | piece :: rest => piece.map .char ++ .through :: bracketMarks rest

/-- The ranges that marks stand for.  A mark for a range at the start is a hyphen. -/
def rangesOf : List BracketMark → List (Char × Char)
  | [] => []
  | .char low :: .through :: .char high :: rest => (low, high) :: rangesOf rest
  | .char c :: rest => (c, c) :: rangesOf rest
  | .through :: rest => ('-', '-') :: rangesOf rest

/-- The piece for what stands in brackets. -/
def ofBracket (inner : List Char) : NamePiece :=
  let pieces := if inner.contains '-' then withoutEmptyRanges (hyphenPieces inner) else [inner]
  match bracketMarks pieces with
  | .char '!' :: marks => .one true (rangesOf marks)
  | marks => .one false (rangesOf marks)

/-! ## Patterns -/

/-- The pattern that a text spells, in at most `limit` pieces. -/
def ofCharsWithin : (limit : Nat) → List Char → NamePattern
  | 0, _ => []
  | _ + 1, [] => []
  | limit + 1, c :: cs =>
    if c == '*' then .star :: ofCharsWithin limit cs
    else if c == '?' then .one true [] :: ofCharsWithin limit cs
    else if c == '[' then
      match bracketLength? cs with
      | some n => ofBracket (cs.take n) :: ofCharsWithin limit (cs.drop (n + 1))
      | none => .one false [('[', '[')] :: ofCharsWithin limit cs
    else .one false [(c, c)] :: ofCharsWithin limit cs

/-- The pattern that a text spells. -/
def ofText (text : String) : NamePattern :=
  ofCharsWithin text.toList.length text.toList

/-- Whether a text has to be matched instead of looked up. -/
def isNeeded (text : String) : Bool :=
  text.toList.any fun c => c == '*' || c == '?' || c == '['

/-- Whether a piece for one character stands for `c`. -/
def accepts (outside : Bool) (ranges : List (Char × Char)) (c : Char) : Bool :=
  outside != ranges.any fun (low, high) => low ≤ c && c ≤ high

/-- All texts that are left when characters are taken from the start. -/
def suffixes : List Char → List (List Char)
  | [] => [[]]
  | c :: cs => (c :: cs) :: suffixes cs

/-- What can be left of a text behind a piece, given what can be left in front of it.  The texts
are ends of one text, the longest one first. -/
def leave (texts : List (List Char)) : NamePiece → List (List Char)
  | .star => texts.head?.toList.flatMap suffixes
  | .one outside ranges =>
    texts.filterMap fun
      | [] => none
      | c :: cs => if accepts outside ranges c then some cs else none

/-- Whether a pattern stands for a name: all pieces together can leave nothing of it. -/
def admits (p : NamePattern) (name : String) : Bool :=
  (p.foldl leave [name.toList]).any List.isEmpty

end NamePattern

end Componentry
